import AiAgentsSwd.CodeGen.Generator
import AiAgentsSwd.Workspace.Confinement

/-!
# CodeGen.WritePlan — where the files of a plan go

Model of `_workspace_root_for` of `development-agent/src/agent.py` and of `write_plan` of
`code_generator.py`: the root of a task is joined from the base directory and the task id as it is,
and of the files of a plan those are written that pass the checks of the path, of the kind of
change and of the content. A path with a NUL raises `ValueError`, which ends the write.
-/

namespace AiAgentsSwd.CodeGen

open ApprovalPolicy (Unicode strip)
open Workspace (pathJoin)

/-- `WORKSPACE_ROOT_DEFAULT` -/
def workspaceRootDefault : String := "/tmp/aiagents-workspaces"

/-- The base directory, `env` being the environment variable `DEVELOPMENT_AGENT_WORKSPACE_ROOT`. -/
def baseDirectory (env : Option String) : List Char := (env.getD workspaceRootDefault).toList

/-- `_workspace_root_for(task_id)` -/
def workspaceRootFor (env : Option String) (taskId : String) : List Char :=
  pathJoin (baseDirectory env) taskId.toList

section Write

variable (u : Unicode)

/-- `validate_change_type(change_type)` -/
def validateChangeType (changeType : String) : Bool × String :=
  let ct := u.lower (strip changeType.toList)
  if ct = "create".toList ∨ ct = "update".toList then (true, "change_type:" ++ String.ofList ct)
  else (false, "disallowed_change_type:" ++
    if ct = [] then "empty" else String.ofList ct)

/-- Why a file is not written. -/
def refusal (allowed : List String) (f : GeneratedFile) : Option String :=
  let path := ApprovalPolicy.validateAllowedPath u f.relativePath allowed
    ApprovalPolicy.defaultDeniedPaths
  let change := validateChangeType u f.changeType
  let content := ApprovalPolicy.validateNoSecretContent u f.content
  if !path.1 then some path.2
  else if !change.1 then some change.2
  else if !content.1 then some content.2
  else none

/-- `WrittenFile`, without what is computed from the text that the disk held. -/
structure WrittenFile where
  relativePath : String
  fullPath : List Char
  changeType : String
  content : String
deriving Repr, DecidableEq

/-- What `write_plan` did: the files that were written and the ones that were refused, with the
reasons, and whether it ended with an error, which the caller sees instead. -/
structure Outcome where
  written : List WrittenFile
  refused : List (String × String)
  raised : Bool
deriving Repr, DecidableEq

/-- The loop of `write_plan`. -/
def writeFiles (root : List Char) (allowed : List String) : List GeneratedFile → Outcome
  | [] => ⟨[], [], false⟩
  | f :: rest =>
    match refusal u allowed f with
    | some why =>
      let r := writeFiles root allowed rest
      { r with refused := (f.relativePath, why) :: r.refused }
    | none =>
      let fullPath := pathJoin root f.relativePath.toList
      if Python.nul ∈ fullPath then ⟨[], [], true⟩
      else
        let r := writeFiles root allowed rest
        { r with written := ⟨f.relativePath, fullPath, f.changeType, f.content⟩ :: r.written }

/-- `write_plan(plan, workspace_root=…, allowed_paths=…)` -/
def writePlan (plan : GenerationPlan) (root : List Char) (allowedPaths : Option (List String)) :
    Outcome :=
  let given := allowedPaths.getD []
  let allowed := if given = [] then ApprovalPolicy.defaultAllowedPaths else given
  if Python.nul ∈ root then ⟨[], [], true⟩ else writeFiles u root allowed plan.files

end Write

/-- What `plan_generation` is called with. -/
structure Request where
  taskId : String
  description : String
  requestType : String
  workItemStatus : Option String
deriving Repr, DecidableEq

section Requests

variable (u : Unicode) (printable : Char → Bool) (env : Option String)

def planOf (r : Request) : GenerationPlan :=
  planGeneration u printable r.taskId r.description r.requestType r.workItemStatus

/-- The files that a request writes, with the default prefixes. -/
def writes (r : Request) : List WrittenFile :=
  (writePlan u (planOf u printable r) (workspaceRootFor env r.taskId)
    (some ApprovalPolicy.defaultAllowedPaths)).written

/-- A file of the plan of a request passes every check. -/
def Accepted (r : Request) (f : GeneratedFile) : Prop :=
  Python.nul ∉ workspaceRootFor env r.taskId ∧ f ∈ (planOf u printable r).files ∧
    refusal u ApprovalPolicy.defaultAllowedPaths f = none

end Requests

/-! ## What is written -/

section Written

variable {u : Unicode} {printable : Char → Bool} {env : Option String}

theorem mem_writeFiles {root : List Char} {allowed : List String} {files : List GeneratedFile}
    (hnul : ∀ f ∈ files, Python.nul ∉ pathJoin root f.relativePath.toList) (w : WrittenFile) :
    w ∈ (writeFiles u root allowed files).written ↔ ∃ f ∈ files, refusal u allowed f = none ∧
      w = ⟨f.relativePath, pathJoin root f.relativePath.toList, f.changeType, f.content⟩ := by
  induction files with
  | nil => simp [writeFiles]
  | cons f rest ih =>
    have ih := ih fun g hg => hnul g (List.mem_cons_of_mem _ hg)
    have hf := hnul f List.mem_cons_self
    unfold writeFiles
    cases hwhy : refusal u allowed f with
    | some why => simp [hwhy, ih]
    | none => simp [hwhy, hf, ih]

end Written

end AiAgentsSwd.CodeGen
