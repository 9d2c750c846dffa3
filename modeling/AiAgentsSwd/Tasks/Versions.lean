import AiAgentsSwd.Tasks.ReplayService

/-!
# Tasks.Versions — what a state version determines

A resume is bound to the text `status:answer_message_id:production_effect`, a replay to the
text `dead_at:attempts`. The separators make the parts readable again:
`resourceStateVersion_inj` and `deadEpisodeStateVersion_attempts`.
-/

namespace AiAgentsSwd.Tasks

open Planning (Uuid Time hexDigits)

/-! ## Identifiers -/

/-- The sixteen digits are distinct. -/
theorem digitChar_inj : ∀ m < 16, ∀ n < 16, Nat.digitChar m = Nat.digitChar n → m = n := by
  decide

theorem digitChar_plain : ∀ n < 16, Nat.digitChar n ≠ '-' ∧ Nat.digitChar n ≠ ':' := by
  decide

theorem hexDigits_inj {k m n : Nat} (hm : m < 16 ^ k) (hn : n < 16 ^ k)
    (h : hexDigits k m = hexDigits k n) : m = n := by
  induction k generalizing m n with
  | zero =>
    rw [Nat.pow_zero] at hm hn
    omega
  | succ k ih =>
    unfold hexDigits at h
    have hparts := List.append_inj' h rfl
    have hhigh : m / 16 = n / 16 := by
      refine ih ?_ ?_ hparts.1
      · rw [Nat.pow_succ] at hm
        omega
      · rw [Nat.pow_succ] at hn
        omega
    have hlow : m % 16 = n % 16 :=
      digitChar_inj _ (Nat.mod_lt _ (by omega)) _ (Nat.mod_lt _ (by omega))
        (List.singleton_inj.mp hparts.2)
    omega

theorem length_hexDigits (k n : Nat) : (hexDigits k n).length = k := by
  induction k generalizing n with
  | zero => rfl
  | succ k ih => rw [hexDigits, List.length_append, ih, List.length_singleton]

theorem hexDigits_plain {k n : Nat} : ∀ c ∈ hexDigits k n, c ≠ '-' ∧ c ≠ ':' := by
  induction k generalizing n with
  | zero => simp [hexDigits]
  | succ k ih =>
    intro c hc
    unfold hexDigits at hc
    rcases List.mem_append.mp hc with hc | hc
    · exact ih c hc
    · rw [List.mem_singleton] at hc
      rw [hc]
      exact digitChar_plain _ (Nat.mod_lt _ (by omega))

/-- The groups of digits of a spelled identifier. -/
theorem toList_toString_uuid (u : Uuid) : (toString u).toList =
    let d := hexDigits 32 u.value
    d.take 8 ++ ['-'] ++ (d.drop 8).take 4 ++ ['-'] ++ (d.drop 12).take 4 ++ ['-'] ++
      (d.drop 16).take 4 ++ ['-'] ++ d.drop 20 :=
  String.toList_ofList

/-- Without the hyphens the digits are left. -/
theorem filter_groups {d : List Char} (hd : ∀ c ∈ d, c ≠ '-') :
    (d.take 8 ++ ['-'] ++ (d.drop 8).take 4 ++ ['-'] ++ (d.drop 12).take 4 ++ ['-'] ++
      (d.drop 16).take 4 ++ ['-'] ++ d.drop 20).filter (· != '-') = d := by
  have hself : ∀ l : List Char, l ⊆ d → l.filter (· != '-') = l := by
    intro l hl
    rw [List.filter_eq_self]
    intro c hc
    simpa using hd c (hl hc)
  have htake : ∀ i j, (d.drop i).take j ⊆ d := fun i j =>
    fun c hc => List.mem_of_mem_drop (List.mem_of_mem_take hc)
  have hjoin : ∀ i j, (d.drop i).take j ++ d.drop (i + j) = d.drop i := by
    intro i j
    rw [← List.drop_drop]
    exact List.take_append_drop j (d.drop i)
  have hhyphen : ['-'].filter (· != '-') = [] := rfl
  simp only [List.filter_append, hhyphen, List.append_nil]
  rw [hself _ (List.take_subset 8 d), hself _ (htake 8 4), hself _ (htake 12 4),
    hself _ (htake 16 4), hself _ (List.drop_subset 20 d)]
  rw [List.append_assoc, hjoin 16 4, List.append_assoc, hjoin 12 4, List.append_assoc, hjoin 8 4]
  exact List.take_append_drop 8 d

theorem toString_uuid_inj {u v : Uuid} (hu : u.value < 2 ^ 128) (hv : v.value < 2 ^ 128)
    (h : toString u = toString v) : u = v := by
  have hlist := congrArg (fun s : String => s.toList.filter (· != '-')) h
  simp only [toList_toString_uuid] at hlist
  rw [filter_groups fun c hc => (hexDigits_plain c hc).1,
    filter_groups fun c hc => (hexDigits_plain c hc).1] at hlist
  have hvalue : u.value = v.value := hexDigits_inj hu hv hlist
  cases u
  cases v
  exact congrArg Uuid.mk hvalue

theorem colon_not_mem_uuid (u : Uuid) : ':' ∉ (toString u).toList := by
  intro hmem
  rw [toList_toString_uuid] at hmem
  simp only [List.mem_append, List.mem_singleton] at hmem
  have hno : ∀ l : List Char, l ⊆ hexDigits 32 u.value → ':' ∉ l :=
    fun l hl hc => (hexDigits_plain _ (hl hc)).2 rfl
  have htake : ∀ i j, ((hexDigits 32 u.value).drop i).take j ⊆ hexDigits 32 u.value :=
    fun i j c hc => List.mem_of_mem_drop (List.mem_of_mem_take hc)
  rcases hmem with ((((((((h | h) | h) | h) | h) | h) | h) | h) | h)
  · exact hno _ (List.take_subset 8 _) h
  · cases h
  · exact hno _ (htake 8 4) h
  · cases h
  · exact hno _ (htake 12 4) h
  · cases h
  · exact hno _ (htake 16 4) h
  · cases h
  · exact hno _ (List.drop_subset 20 _) h

/-- An identifier is not a hyphen. -/
theorem toString_uuid_ne (u : Uuid) : toString u ≠ "-" := by
  intro h
  have hlist := congrArg (fun s : String => s.toList.filter (· != '-')) h
  simp only [toList_toString_uuid] at hlist
  rw [filter_groups fun c hc => (hexDigits_plain c hc).1] at hlist
  have hlen := congrArg List.length hlist
  rw [length_hexDigits] at hlen
  exact absurd hlen (by decide)

/-! ## Texts with separators -/

theorem append_colon_inj {l l' r r' : List Char} (hl : ':' ∉ l) (hl' : ':' ∉ l')
    (h : l ++ ':' :: r = l' ++ ':' :: r') : l = l' ∧ r = r' := by
  induction l generalizing l' with
  | nil =>
    cases l' with
    | nil => simpa using h
    | cons c l' =>
      simp only [List.nil_append, List.cons_append, List.cons.injEq] at h
      exact absurd (by simp [← h.1]) hl'
  | cons c l ih =>
    cases l' with
    | nil =>
      simp only [List.nil_append, List.cons_append, List.cons.injEq] at h
      exact absurd (by simp [h.1]) hl
    | cons c' l' =>
      simp only [List.cons_append, List.cons.injEq] at h
      simp only [List.mem_cons, not_or] at hl hl'
      have hrest := ih hl.2 hl'.2 h.2
      exact ⟨by rw [h.1, hrest.1], hrest.2⟩

/-- What stands before the first colon, and after it. -/
theorem split_first {a b a' b' : String} (ha : ':' ∉ a.toList) (ha' : ':' ∉ a'.toList)
    (h : a ++ (":" ++ b) = a' ++ (":" ++ b')) : a = a' ∧ b = b' := by
  have hlist : a.toList ++ ':' :: b.toList = a'.toList ++ ':' :: b'.toList := by
    simpa using congrArg String.toList h
  have hparts := append_colon_inj ha ha' hlist
  exact ⟨String.toList_inj.mp hparts.1, String.toList_inj.mp hparts.2⟩

/-- What stands after the last colon. -/
theorem split_last {a b a' b' : String} (hb : ':' ∉ b.toList) (hb' : ':' ∉ b'.toList)
    (h : a ++ ":" ++ b = a' ++ ":" ++ b') : b = b' := by
  have hlist : a.toList ++ ':' :: b.toList = a'.toList ++ ':' :: b'.toList := by
    simpa using congrArg String.toList h
  have hrev : b.toList.reverse ++ ':' :: a.toList.reverse =
      b'.toList.reverse ++ ':' :: a'.toList.reverse := by
    simpa using congrArg List.reverse hlist
  have hparts := append_colon_inj (by simpa using hb) (by simpa using hb') hrev
  exact String.toList_inj.mp (List.reverse_injective hparts.1)

/-! ## The two versions -/

theorem colon_not_mem_status (st : ClarificationStatus) : ':' ∉ (toString st).toList := by
  cases st <;> decide

theorem status_inj {st st' : ClarificationStatus} (h : toString st = toString st') : st = st' := by
  cases st <;> cases st' <;> first | rfl | exact absurd h (by decide)

/-- The answer of a clarification, as the version spells it. -/
theorem answer_inj {a a' : Option Uuid} (ha : ∀ u, a = some u → u.value < 2 ^ 128)
    (ha' : ∀ u, a' = some u → u.value < 2 ^ 128)
    (h : (a.map toString).getD "-" = (a'.map toString).getD "-") : a = a' := by
  cases a with
  | none =>
    cases a' with
    | none => rfl
    | some u' => exact absurd h.symm (toString_uuid_ne u')
  | some u =>
    cases a' with
    | none => exact absurd h (toString_uuid_ne u)
    | some u' => rw [toString_uuid_inj (ha u rfl) (ha' u' rfl) h]

theorem colon_not_mem_answer (a : Option Uuid) : ':' ∉ ((a.map toString).getD "-").toList := by
  cases a with
  | none => decide
  | some u => exact colon_not_mem_uuid u

/-- The version determines what the request was made for. -/
theorem resourceStateVersion_inj {clar clar' : Clarification} {task task' : Task}
    (ha : ∀ u, clar.answerMessageId = some u → u.value < 2 ^ 128)
    (ha' : ∀ u, clar'.answerMessageId = some u → u.value < 2 ^ 128)
    (h : resourceStateVersion clar task = resourceStateVersion clar' task') :
    clar.status = clar'.status ∧ clar.answerMessageId = clar'.answerMessageId ∧
      task.productionEffect = task'.productionEffect := by
  unfold resourceStateVersion at h
  simp only [String.append_assoc] at h
  have hfirst := split_first (colon_not_mem_status _) (colon_not_mem_status _) h
  have hsecond := split_first (colon_not_mem_answer _) (colon_not_mem_answer _) hfirst.2
  refine ⟨status_inj hfirst.1, answer_inj ha ha' hsecond.1, ?_⟩
  have hflag := hsecond.2
  cases hp : task.productionEffect <;> cases hp' : task'.productionEffect <;>
    simp [hp, hp'] at hflag ⊢

theorem colon_not_mem_nat (n : Nat) : ':' ∉ (toString n).toList := by
  intro hmem
  rw [show toString n = n.repr from rfl, Nat.toList_repr] at hmem
  have hdigit := Nat.isDigit_of_mem_toDigits (by omega) (by omega) hmem
  exact absurd hdigit (by decide)

theorem toString_nat_inj {m n : Nat} (h : toString m = toString n) : m = n := by
  have hlist := congrArg (fun s : String => Nat.ofDigitChars 10 s.toList 0) h
  simpa only [show ∀ k : Nat, toString k = k.repr from fun _ => rfl, Nat.toList_repr,
    Nat.ofDigitChars_ten_toDigits] using hlist

/-- The version of a dead episode determines the attempts. -/
theorem deadEpisodeStateVersion_attempts {deadAt deadAt' : Time} {attempts attempts' : Nat}
    (h : deadEpisodeStateVersion deadAt attempts = deadEpisodeStateVersion deadAt' attempts') :
    attempts = attempts' :=
  toString_nat_inj (split_last (colon_not_mem_nat _) (colon_not_mem_nat _) h)

/-- Two rows in the same episode have failed as often. -/
theorem attempts_of_episode {o o' : OutboxEvent} {version : String}
    (h : o.episode = some version) (h' : o'.episode = some version) : o.attempts = o'.attempts := by
  unfold OutboxEvent.episode at h h'
  rw [Option.map_eq_some_iff] at h h'
  rcases h with ⟨_, -, rfl⟩
  rcases h' with ⟨_, -, hv⟩
  exact (deadEpisodeStateVersion_attempts hv).symm

end AiAgentsSwd.Tasks
