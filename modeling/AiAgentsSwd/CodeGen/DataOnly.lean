import AiAgentsSwd.CodeGen.Generator

/-!
# CodeGen.DataOnly — what a request can do to the code that is generated

The Python files of a plan are read as their templates intend, and their constants are the values
of the request, exactly when the task id may stand in a title and the description between triple
quotes (`data_only_iff`). The one textual replacement takes runs of quotes away, but neither a
quote at the end nor escapes, and the task id stands in the title as it is.
-/

namespace AiAgentsSwd.CodeGen

open Python

section Constants

variable (names : List Char → Option Nat)

/-- The code assigns what comes next to a name. -/
def endsIn (name : String) (code : List Char) : Bool :=
  (name.toList ++ " = ".toList).isSuffixOf code

/-- The literal that is assigned to a name. -/
def assigned (name : String) : List Token → Option Literal
  | [] => none
  | .lit _ :: rest => assigned name rest
  | .code t :: rest =>
    match rest with
    | .lit l :: _ => if endsIn name t then some l else assigned name rest
    | _ => assigned name rest

def Token.hasValue : Token → Bool
  | .code _ => true
  | .lit l => (decode names l.body).isSome

/-- The literals of a source end in it, and have values. -/
def compiles (content : String) : Bool :=
  match lexSource content.toList with
  | none => false
  | some tokens => tokens.all (Token.hasValue names)

/-- The value of a constant of a module. -/
def constant (content : String) (name : String) : Option (List Nat) :=
  if compiles names content then
    ((lexSource content.toList).bind (assigned name)).bind fun l => decode names l.body
  else none

end Constants

/-- The request is in the files as data: they have the tokens of the template, and the constants
of the module are the values of the request. -/
structure DataOnly (u : ApprovalPolicy.Unicode) (printable : Char → Bool)
    (names : List Char → Option Nat) (taskId description requestType : String)
    (plan : GenerationPlan) : Prop where
  tokens : plan.files.map (fun f => lexSource f.content.toList) =
    (sources printable plan.template
      (envOf u taskId.toList description.toList requestType.toList)).map
        fun src => some src.universal.tokens
  compiles : ∀ f ∈ plan.files, CodeGen.compiles names f.content
  task_id : ∀ f ∈ plan.files.head?,
    constant names f.content "TASK_ID" = some (codes taskId.toList)
  request_type : ∀ f ∈ plan.files.head?,
    constant names f.content "REQUEST_TYPE" = some (codes requestType.toList)
  description : ∃ value, decode names (universal (describedText description.toList)) = some value ∧
    ∀ f ∈ plan.files.head?, constant names f.content "ORIGINAL_DESCRIPTION" = some value

/-! ## The slug -/

theorem isSlug_spec {c : Char} (h : isSlug c) : tame c ∧ Python.plain c := by
  have hrange : 48 ≤ c.toNat ∧ c.toNat ≤ 57 ∨ c.toNat = 95 ∨ 97 ≤ c.toNat ∧ c.toNat ≤ 122 := by
    simp only [isSlug, Bool.or_eq_true, Bool.and_eq_true, decide_eq_true_eq, beq_iff_eq] at h
    rcases h with (h | h) | h
    · exact Or.inr (Or.inr ⟨h.1, h.2⟩)
    · exact Or.inl ⟨h.1, h.2⟩
    · rw [h]
      decide
  have hne : ∀ d : Char, ¬(48 ≤ d.toNat ∧ d.toNat ≤ 57 ∨ d.toNat = 95 ∨
      97 ≤ d.toNat ∧ d.toNat ≤ 122) → c ≠ d := by
    intro d hd hcd
    rw [hcd] at hrange
    exact hd hrange
  have h34 := hne doubleQuote (by decide)
  have h39 := hne apostrophe (by decide)
  have h92 := hne '\\' (by decide)
  have h10 := hne '\n' (by decide)
  have h13 := hne '\r' (by decide)
  have h0 := hne nul (by decide)
  have h125 := hne '}' (by decide)
  have h35 := hne '#' (by decide)
  constructor
  · simp [tame, isQuote, h34, h39, h92, h10, h13, h0, h125]
  · simp [Python.plain, isQuote, h34, h39, h13, h0, h35]

theorem mem_subUnsafe {inRun : Bool} {s : List Char} {c : Char} (h : c ∈ subUnsafe inRun s) :
    isSlug c := by
  induction s generalizing inRun with
  | nil => simp [subUnsafe] at h
  | cons d s ih =>
    rw [subUnsafe] at h
    split_ifs at h with hd hrun
    · rcases List.mem_cons.1 h with hc | hc
      · rw [hc]
        exact hd
      · exact ih hc
    · exact ih h
    · rcases List.mem_cons.1 h with hc | hc
      · rw [hc]
        decide
      · exact ih hc

theorem mem_slugify {u : ApprovalPolicy.Unicode} {value : List Char} {c : Char}
    (h : c ∈ slugify u value) : isSlug c := by
  have htask : ∀ d ∈ "task".toList, isSlug d := List.all_iff_forall_prop.mp (by decide)
  have horTask : ∀ d ∈ orTask (stripUnderscores (subUnsafe false (u.lower value))), isSlug d := by
    intro d hd
    unfold orTask at hd
    split_ifs at hd
    · exact htask d hd
    · rw [stripUnderscores, List.mem_reverse] at hd
      have hd' := (List.dropWhile_sublist _).mem hd
      rw [List.mem_reverse] at hd'
      exact mem_subUnsafe ((List.dropWhile_sublist _).mem hd')
  unfold slugify at h
  dsimp only at h
  split_ifs at h
  · exact htask c h
  · rcases List.mem_append.1 h with h | h
    · exact (List.all_iff_forall_prop.mp (by decide) : ∀ d ∈ "t_".toList, isSlug d) c h
    · exact horTask c h
  · exact horTask c h

theorem slugOk_envOf (u : ApprovalPolicy.Unicode) (taskId description requestType : List Char) :
    SlugOk (envOf u taskId description requestType) := fun _ hc => isSlug_spec (mem_slugify hc)

/-! ## The constants of a template -/

/-- Code in which a request fills nothing in. -/
def textOf : List Piece → Option (List Char)
  | [] => some []
  | .text s :: rest => (textOf rest).map (s.toList ++ ·)
  | .hole _ :: _ => none

/-- The literal that a template assigns to a name, as far as the code before it is its own;
`before` is the code that was read last. -/
def findLit (name : String) : (before : Option (List Char)) → Template → Option Lit
  | none, _ => none
  | some _, [] => none
  | some t, (l, code) :: rest => if endsIn name t then some l else findLit name (textOf code) rest

section Filled

variable {names : List Char → Option Nat} {printable : Char → Bool} {env : Env}

theorem fillAll_textOf {pieces : List Piece} {t : List Char} (h : textOf pieces = some t) :
    fillAll env pieces = t := by
  induction pieces generalizing t with
  | nil =>
    rw [← Option.some.inj h]
    rfl
  | cons piece rest ih =>
    cases piece with
    | text s =>
      rcases Option.map_eq_some_iff.1 h with ⟨t', ht', heq⟩
      rw [← heq, ← ih ht']
      simp [fillAll, Piece.fill]
    | hole hole => cases h

theorem findLit_none (name : String) (t : Template) : findLit name none t = none := by
  cases t with
  | nil => rfl
  | cons p t => rfl

theorem assigned_next {name : String} {before : List Char} (h : endsIn name before = false)
    (l : Literal) (rest : List Token) :
    assigned name (.code before :: .lit l :: rest) = assigned name rest := by
  simp [assigned, h]

theorem assigned_of_findLit {name : String} {before : List Char} {t : Template} {l : Lit}
    (h : findLit name (some before) t = some l) :
    assigned name (.code before :: (sourceOf printable env t).universal.tokens.tail) =
      some (l.fill printable env).universal := by
  induction t generalizing before with
  | nil => cases h
  | cons p t ih =>
    have htail : (sourceOf printable env (p :: t)).universal.tokens.tail =
        .lit (p.1.fill printable env).universal :: .code (fillAll env p.2) ::
          (sourceOf printable env t).universal.tokens.tail := by
      simp [sourceOf, Source.universal, Source.tokens]
    rw [htail]
    rw [findLit] at h
    split_ifs at h with hends
    · simp [assigned, hends, ← Option.some.inj h]
    · cases hcode : textOf p.2 with
      | none => rw [hcode, findLit_none] at h; cases h
      | some code =>
        rw [hcode] at h
        rw [fillAll_textOf hcode, assigned_next (by simpa using hends)]
        exact ih h

theorem tokens_sourceOf (t : Template) : (sourceOf printable env t).universal.tokens =
    .code [] :: (sourceOf printable env t).universal.tokens.tail := rfl

theorem lit_mem_tokens {src : Source} {l : Literal} :
    Token.lit l ∈ src.tokens ↔ l ∈ src.literals := by
  simp [Source.tokens, Source.literals]

theorem compiles_of_lexed {src : Source} {content : String}
    (h : lexSource content.toList = some src.universal.tokens) : compiles names content ↔
      ∀ l ∈ src.literals, (decode names l.universal.body).isSome := by
  have hliterals : src.universal.literals = src.literals.map Literal.universal := by
    simp [Source.literals, Source.universal]
  rw [compiles, h]
  dsimp only
  rw [List.all_eq_true]
  constructor
  · intro hall l hl
    have hmem : Token.lit l.universal ∈ src.universal.tokens := by
      rw [lit_mem_tokens, hliterals]
      exact List.mem_map_of_mem hl
    exact hall _ hmem
  · intro hall token htoken
    cases token with
    | code t => rfl
    | lit l =>
      rw [lit_mem_tokens, hliterals] at htoken
      rcases List.mem_map.1 htoken with ⟨l', hl', heq⟩
      rw [← heq]
      exact hall l' hl'

/-- The constants of a module that compiles are the values of its literals. -/
theorem constant_of_findLit {t : Template} {content name : String} {l : Lit}
    (hlex : lexSource content.toList = some (sourceOf printable env t).universal.tokens)
    (hcompiles : compiles names content) (h : findLit name (some []) t = some l) :
    constant names content name = decode names (l.fill printable env).universal.body := by
  rw [constant, if_pos hcompiles, hlex, tokens_sourceOf, Option.bind_some,
    assigned_of_findLit h, Option.bind_some]

end Filled

theorem findLit_apiTemplate : findLit "TASK_ID" (some []) apiTemplate = some (.repr .taskId) ∧
    findLit "REQUEST_TYPE" (some []) apiTemplate = some (.repr .requestType) ∧
    findLit "ORIGINAL_DESCRIPTION" (some []) apiTemplate = some (.doc [.hole .described]) := by
  decide +kernel

theorem findLit_utilityTemplate :
    findLit "TASK_ID" (some []) utilityTemplate = some (.repr .taskId) ∧
    findLit "REQUEST_TYPE" (some []) utilityTemplate = some (.repr .requestType) ∧
    findLit "ORIGINAL_DESCRIPTION" (some []) utilityTemplate = some (.doc [.hole .described]) := by
  decide +kernel

/-! ## The files of a plan -/

section Plans

variable {u : ApprovalPolicy.Unicode} {printable : Char → Bool} {names : List Char → Option Nat}

/-- A module and its test, of templates that pass the check: what a request can break is the title
of both and the description in the module. -/
theorem pair_iff (names : List Char → Option Nat) {env : Env} (hslug : SlugOk env)
    {module_ test : Template}
    (hmodule : module_.check) (htest : test.check)
    (htitled : module_.any fun p => p.1.titled) (hdescribes : module_.any fun p => p.1.describes)
    (hplain : test.any (fun p => p.1.describes) = false) {file file' : String}
    (hfile : file.toList = (sourceOf printable env module_).render)
    (hfile' : file'.toList = (sourceOf printable env test).render) :
    ((lexSource file.toList = some (sourceOf printable env module_).universal.tokens ∧
        lexSource file'.toList = some (sourceOf printable env test).universal.tokens) ∧
      compiles names file ∧ compiles names file') ↔
        Enclosable names (env .taskId) ∧ Spliceable names (env .described) := by
  have hiff := filled_iff names printable hslug hmodule
  have hiff' := filled_iff names printable hslug htest
  simp only [htitled, hdescribes, forall_true_left] at hiff
  rw [hplain] at hiff'
  rw [hfile, hfile']
  constructor
  · intro h
    rcases h with ⟨⟨hlex, hlex'⟩, hcompiles, hcompiles'⟩
    rw [compiles_of_lexed (by rw [hfile]; exact hlex)] at hcompiles
    exact hiff.1 ⟨hlex, hcompiles⟩
  · intro h
    rcases hiff.2 h with ⟨hlex, hvalues⟩
    rcases hiff'.2 ⟨fun _ => h.1, by intro hno; cases hno⟩ with ⟨hlex', hvalues'⟩
    exact ⟨⟨hlex, hlex'⟩, (compiles_of_lexed (by rw [hfile]; exact hlex)).2 hvalues,
      (compiles_of_lexed (by rw [hfile']; exact hlex')).2 hvalues'⟩

/-- What is assigned in the modules of both templates. -/
def Assigns (module_ : Template) : Prop :=
  findLit "TASK_ID" (some []) module_ = some (.repr .taskId) ∧
    findLit "REQUEST_TYPE" (some []) module_ = some (.repr .requestType) ∧
    findLit "ORIGINAL_DESCRIPTION" (some []) module_ = some (.doc [.hole .described])

theorem dataOnly_pair_iff {taskId description requestType : String} {plan : GenerationPlan}
    {module_ test : Template} {f f' : GeneratedFile}
    (hmodule : module_.check) (htest : test.check)
    (htitled : module_.any fun p => p.1.titled) (hdescribes : module_.any fun p => p.1.describes)
    (hplain : test.any (fun p => p.1.describes) = false) (hassigns : Assigns module_)
    (hsources : sources printable plan.template
      (envOf u taskId.toList description.toList requestType.toList) =
        [sourceOf printable (envOf u taskId.toList description.toList requestType.toList) module_,
          sourceOf printable (envOf u taskId.toList description.toList requestType.toList) test])
    (hfiles : plan.files = [f, f'])
    (hf : f.content.toList =
      (sourceOf printable (envOf u taskId.toList description.toList requestType.toList)
        module_).render)
    (hf' : f'.content.toList =
      (sourceOf printable (envOf u taskId.toList description.toList requestType.toList)
        test).render) :
    DataOnly u printable names taskId description requestType plan ↔
      Enclosable names taskId.toList ∧ Spliceable names (describedText description.toList) := by
  have hslug := slugOk_envOf u taskId.toList description.toList requestType.toList
  have hpair := pair_iff names hslug hmodule htest htitled hdescribes hplain hf hf'
  constructor
  · intro h
    have htokens := h.tokens
    rw [hfiles, hsources] at htokens
    simp only [List.map_cons, List.map_nil, List.cons.injEq, and_true] at htokens
    have hcompiles := h.compiles
    rw [hfiles] at hcompiles
    exact hpair.1 ⟨htokens, hcompiles f (by simp), hcompiles f' (by simp)⟩
  · intro h
    rcases hpair.2 h with ⟨⟨hlex, hlex'⟩, hcompiles, hcompiles'⟩
    have hhead : ∀ g ∈ plan.files.head?, g = f := by
      rw [hfiles]
      simp
    have hvalue : ∀ name l, findLit name (some []) module_ = some l →
        ∀ g ∈ plan.files.head?, constant names g.content name =
          decode names (l.fill printable
            (envOf u taskId.toList description.toList requestType.toList)).universal.body := by
      intro name l hfind g hg
      rw [hhead g hg]
      exact constant_of_findLit hlex hcompiles hfind
    have hrepr : ∀ s : List Char, decode names (Python.repr printable s).universal.body =
        some (codes s) := by
      intro s
      rw [universal_repr, decode_repr]
    refine ⟨?_, ?_, ?_, ?_, ?_⟩
    · rw [hfiles, hsources]
      simp [hlex, hlex']
    · rw [hfiles]
      simp [hcompiles, hcompiles']
    · intro g hg
      rw [hvalue "TASK_ID" _ hassigns.1 g hg]
      exact hrepr taskId.toList
    · intro g hg
      rw [hvalue "REQUEST_TYPE" _ hassigns.2.1 g hg]
      exact hrepr requestType.toList
    · rcases Option.isSome_iff_exists.1 h.2.2.2 with ⟨value, hdecode⟩
      refine ⟨value, hdecode, ?_⟩
      intro g hg
      rw [hvalue "ORIGINAL_DESCRIPTION" _ hassigns.2.2 g hg, ← hdecode]
      simp [Lit.fill, fillAll, Piece.fill, Literal.universal, envOf]

theorem planGeneration_files {taskId description requestType : String}
    {workItemStatus : Option String}
    (h : (planGeneration u printable taskId description requestType workItemStatus).status =
      "ready") :
    (planGeneration u printable taskId description requestType workItemStatus).files =
      generate u printable
        (planGeneration u printable taskId description requestType workItemStatus).template
        taskId.toList description.toList requestType.toList := by
  unfold planGeneration at h ⊢
  dsimp only at h ⊢
  split_ifs at h ⊢ with hstatus hblocked
  · exact absurd (show "blocked" = "ready" from h) (by decide)
  · exact absurd (show "blocked" = "ready" from h) (by decide)
  · rfl

/-- A plan of either kind, whichever it is. -/
theorem dataOnly_plan_iff {taskId description requestType : String} {plan : GenerationPlan}
    (hpython : plan.template = .demoApi ∨ plan.template = .simpleUtility)
    (hfiles : plan.files = generate u printable plan.template taskId.toList description.toList
      requestType.toList) :
    DataOnly u printable names taskId description requestType plan ↔
      Enclosable names taskId.toList ∧ Spliceable names (describedText description.toList) := by
  rcases hpython with hfamily | hfamily
  · rw [hfamily] at hfiles
    exact dataOnly_pair_iff check_apiTemplate check_apiTestTemplate (by decide +kernel)
      (by decide +kernel) (by decide +kernel) findLit_apiTemplate (by rw [hfamily]; rfl) hfiles
      String.toList_ofList String.toList_ofList
  · rw [hfamily] at hfiles
    exact dataOnly_pair_iff check_utilityTemplate check_utilityTestTemplate (by decide +kernel)
      (by decide +kernel) (by decide +kernel) findLit_utilityTemplate (by rw [hfamily]; rfl) hfiles
      String.toList_ofList String.toList_ofList

/-- The Python files of a plan hold the request as data, exactly when the task id may stand in a
title and the description between triple quotes. -/
theorem data_only_iff (u : ApprovalPolicy.Unicode) (printable : Char → Bool)
    (names : List Char → Option Nat) (taskId description requestType : String)
    (workItemStatus : Option String) (plan : GenerationPlan)
    (hplan : planGeneration u printable taskId description requestType workItemStatus = plan)
    (hready : plan.status = "ready")
    (hpython : plan.template = .demoApi ∨ plan.template = .simpleUtility) :
    DataOnly u printable names taskId description requestType plan ↔
      Enclosable names taskId.toList ∧ Spliceable names (describedText description.toList) := by
  refine dataOnly_plan_iff hpython ?_
  rw [← hplan] at hready ⊢
  exact planGeneration_files hready

/-- The tables of ASCII. -/
def ascii : ApprovalPolicy.Unicode where
  isWord c := c.isAlphanum || c == '_'
  variants c := [c.toLower, c.toUpper]
  lower := List.map Char.toLower

def asciiPrintable (c : Char) : Bool := decide (32 ≤ c.toNat ∧ c.toNat < 127)

theorem data_only_of_plain : DataOnly ascii asciiPrintable (fun _ => none) "T-1" "Build an api" ""
    (planGeneration ascii asciiPrintable "T-1" "Build an api" "" none) ↔
      Enclosable (fun _ => none) "T-1".toList ∧
        Spliceable (fun _ => none) (describedText "Build an api".toList) :=
  data_only_iff ascii asciiPrintable (fun _ => none) "T-1" "Build an api" "" none _ rfl
    (by decide +kernel) (by decide +kernel)

/-- A description that ends with a quote takes one of the closing quotes. -/
theorem quoted_end_not_data :
    (planGeneration ascii asciiPrintable "T-1" "Build an api called \"x\"" "" none).status =
        "ready" ∧
      (planGeneration ascii asciiPrintable "T-1" "Build an api called \"x\"" "" none).template =
        .demoApi ∧
      ¬DataOnly ascii asciiPrintable (fun _ => none) "T-1" "Build an api called \"x\"" ""
        (planGeneration ascii asciiPrintable "T-1" "Build an api called \"x\"" "" none) := by
  have hready : (planGeneration ascii asciiPrintable "T-1" "Build an api called \"x\"" ""
      none).status = "ready" := by decide +kernel
  have hfamily : (planGeneration ascii asciiPrintable "T-1" "Build an api called \"x\"" ""
      none).template = .demoApi := by decide +kernel
  refine ⟨hready, hfamily, ?_⟩
  rw [dataOnly_plan_iff (Or.inl hfamily) (planGeneration_files hready)]
  intro h
  have hfits : Within.after true doubleQuote (.quotes 0)
      (universal (describedText "Build an api called \"x\"".toList)) ≠ some (.quotes 0) := by
    decide +kernel
  exact hfits h.2.2.1

end Plans

end AiAgentsSwd.CodeGen
