import AiAgentsSwd.Retry.Envelopes

/-!
# Retry.Pipeline — an agent, its stream and the retry scheduler

Model of `StreamAgent.run_consumer` in `shared/sdk/base_agent/stream_agent.py` and of
`RetryScheduler.run` in `apps/retry-scheduler/src/scheduler.py`, with `stream.deadletter` between
them. Both read with `>`, so that what was delivered once is never delivered again: an entry that
is neither acknowledged nor in the hands of the process that read it is stranded.

`step` is any interleaving of the two processes, of failures of their calls and of replays by an
operator.
-/

namespace AiAgentsSwd.Retry

open Python (Runtime)

/-- An agent reads a stream that has a name. -/
structure StreamAgent where
  inputStream : String
  named : inputStream ≠ ""

variable {ι : Type}

/-- An event, and the event that was published first. -/
structure Entry (ι : Type) where
  origin : ι
  event : Event

/-- Where `run_consumer` is, with the rest of its batch. -/
inductive AgentAt (ι : Type) where
  | idle
  | processing (e : Entry ι) (rest : List (Entry ι))
  /-- `_handle_failure` -/
  | failed (e : Entry ι) (rest : List (Entry ι))
  | acking (e : Entry ι) (rest : List (Entry ι))

structure World (ι : Type) where
  /-- The entries of the input stream that nobody has read. -/
  queue : List (Entry ι)
  agent : AgentAt ι
  /-- Every entry of `stream.deadletter`. -/
  deadLetters : List (Entry ι)
  /-- Those of them that nobody has read. -/
  unread : List (Entry ι)
  /-- The rest of the scheduler's batch. -/
  batch : List (Entry ι)
  /-- The tasks of the scheduler, and whether their message is acknowledged. -/
  tasks : List (Entry ι × Bool)
  stranded : List (Entry ι)
  handled : List (Entry ι)
  terminal : List (Entry ι)
  /-- Acknowledged, and published nowhere. -/
  dropped : List (Entry ι)
  /-- The runs of the handler. -/
  ran : List (Entry ι)
  replayed : List (Entry ι)

def World.start (queue : List (Entry ι)) : World ι where
  queue := queue
  agent := .idle
  deadLetters := []
  unread := []
  batch := []
  tasks := []
  stranded := []
  handled := []
  terminal := []
  dropped := []
  ran := []
  replayed := []

/-- What happens next. A call of Redis may fail: `added` says whether the entry is in its stream,
`done` and `acked` whether the message is acknowledged. -/
inductive Act where
  | consume
  /-- The answer of `XREADGROUP` is lost. -/
  | consumeLost
  | completes
  | raises
  | publish (reason now : String) (added : Bool)
  | ack (done : Bool)
  | stopAgent
  | readLetters
  | readLettersLost
  | spawn (acked : Bool)
  | runTask (i : Nat) (messageId now : String) (added : Bool)
  | stopScheduler
  | replay (i : Nat) (now : String)

/-- `count=10` -/
def batchSize : Nat := 10

/-- The next event of a batch. -/
def AgentAt.next : List (Entry ι) → AgentAt ι
  | [] => .idle
  | e :: rest => .processing e rest

/-- The events a consumer that stops leaves pending. -/
def AgentAt.inHand : AgentAt ι → List (Entry ι)
  | .idle => []
  | .processing e rest => e :: rest
  | .failed e rest => e :: rest
  | .acking _ rest => rest

variable (rt : Runtime) (sa : StreamAgent)

/-- `_handle_failure`; where an exception gets out of it the batch is given up. -/
def World.publish (w : World ι) (e : Entry ι) (rest : List (Entry ι)) (reason now : String)
    (added : Bool) : World ι :=
  match handleFailure rt sa.inputStream e.event reason now with
  | none => { w with agent := .idle, stranded := w.stranded ++ (e :: rest) }
  | some none => { w with agent := .acking e rest, dropped := w.dropped ++ [e] }
  | some (some publication) =>
    if added then
      match publication with
      | .retry event => { w with agent := .acking e rest, queue := w.queue ++ [⟨e.origin, event⟩] }
      | .deadLetter letter =>
        { w with
          agent := .acking e rest
          deadLetters := w.deadLetters ++ [⟨e.origin, letter⟩]
          unread := w.unread ++ [⟨e.origin, letter⟩] }
    else { w with agent := .acking e rest, dropped := w.dropped ++ [e] }

/-- The task of a dead letter ends without an event for it. -/
def World.lose (w : World ι) (d : Entry ι) (acked : Bool) : World ι :=
  if acked then { w with dropped := w.dropped ++ [d] }
  else { w with stranded := w.stranded ++ [d] }

/-- `_safe_handle(message_id, payload)`. A dead letter of another agent is not looked at here. -/
def World.runTask (w : World ι) (d : Entry ι) (acked : Bool) (messageId now : String)
    (added : Bool) : Option (World ι) :=
  match handle rt d.event messageId now with
  | none => some (w.lose d acked)
  | some .noOriginalStream => some (w.lose d acked)
  | some (.terminalFailure event) =>
    if added then some { w with terminal := w.terminal ++ [⟨d.origin, event⟩] }
    else some (w.lose d acked)
  | some (.requeued target event) =>
    if target ≠ sa.inputStream then none
    else if added then some { w with queue := w.queue ++ [⟨d.origin, event⟩] }
    else some (w.lose d acked)

/-- One step. -/
def step (w : World ι) : Act → Option (World ι)
  | .consume =>
    match w.agent, w.queue.take batchSize with
    | .idle, e :: rest =>
      some { w with queue := w.queue.drop batchSize, agent := .processing e rest }
    | _, _ => none
  | .consumeLost =>
    match w.agent, w.queue.take batchSize with
    | .idle, e :: rest =>
      some { w with queue := w.queue.drop batchSize, stranded := w.stranded ++ (e :: rest) }
    | _, _ => none
  | .completes =>
    match w.agent with
    | .processing e rest =>
      some { w with agent := .acking e rest, handled := w.handled ++ [e], ran := w.ran ++ [e] }
    | _ => none
  | .raises =>
    match w.agent with
    | .processing e rest => some { w with agent := .failed e rest, ran := w.ran ++ [e] }
    | _ => none
  | .publish reason now added =>
    match w.agent with
    | .failed e rest => some (w.publish rt sa e rest reason now added)
    | _ => none
  | .ack done =>
    match w.agent with
    | .acking _ rest =>
      if done then some { w with agent := .next rest }
      else some { w with agent := .idle, stranded := w.stranded ++ rest }
    | _ => none
  | .stopAgent =>
    match w.agent with
    | .idle => none
    | _ => some { w with agent := .idle, stranded := w.stranded ++ w.agent.inHand }
  | .readLetters =>
    match w.batch, w.unread.take batchSize with
    | [], d :: rest => some { w with unread := w.unread.drop batchSize, batch := d :: rest }
    | _, _ => none
  | .readLettersLost =>
    match w.batch, w.unread.take batchSize with
    | [], d :: rest =>
      some { w with unread := w.unread.drop batchSize, stranded := w.stranded ++ (d :: rest) }
    | _, _ => none
  | .spawn acked =>
    match w.batch with
    | [] => none
    | d :: rest =>
      if acked then some { w with batch := rest, tasks := w.tasks ++ [(d, true)] }
      else some
        { w with batch := [], tasks := w.tasks ++ [(d, false)], stranded := w.stranded ++ rest }
  | .runTask i messageId now added =>
    match w.tasks[i]? with
    | none => none
    | some (d, acked) =>
      ({ w with tasks := w.tasks.eraseIdx i } : World ι).runTask rt sa d acked messageId now added
  | .stopScheduler =>
    if w.batch = [] ∧ w.tasks = [] then none
    else some
      { w with
        batch := []
        tasks := []
        dropped := w.dropped ++ (w.tasks.filter Prod.snd).map Prod.fst
        stranded := w.stranded ++ (w.tasks.filter (!·.2)).map Prod.fst ++ w.batch }
  | .replay i now =>
    match w.deadLetters[i]? with
    | none => none
    | some d =>
      match replay rt d.event now with
      | none => none
      | some (target, event) =>
        if target ≠ sa.inputStream then none
        else some
          { w with
            queue := w.queue ++ [⟨d.origin, event⟩]
            replayed := w.replayed ++ [⟨d.origin, event⟩] }

end AiAgentsSwd.Retry
