import Mathlib.Data.List.DropRight
import Mathlib.Tactic.Common

/-!
# Text.Codecs — texts as bytes and bytes as texts

UTF-8, hexadecimal digits, and the URL-safe alphabet of base64 as the standard library reads and
writes it. The decoder passes over what is not in the alphabet, reads both alphabets, and stops
at the padding that ends a group of four; without the padding and with it again added, what was
encoded is what comes back (`unb64_b64`).
-/

namespace AiAgentsSwd.Text

/-! ## UTF-8 -/

/-- `s.encode("utf-8")` -/
def encodeUtf8 (s : String) : List UInt8 := s.toByteArray.data.toList

/-- `data.decode("utf-8")`: none where it raises `UnicodeDecodeError`. -/
def decodeUtf8 (data : List UInt8) : Option String := String.fromUTF8? ⟨data.toArray⟩

theorem encodeUtf8_append (s t : String) : encodeUtf8 (s ++ t) = encodeUtf8 s ++ encodeUtf8 t := by
  simp [encodeUtf8]

theorem decodeUtf8_encodeUtf8 (s : String) : decodeUtf8 (encodeUtf8 s) = some s := by
  unfold decodeUtf8 encodeUtf8 String.fromUTF8?
  rw [Array.toArray_toList, dif_pos s.isValidUTF8]
  rfl

theorem encodeUtf8_inj {s t : String} (h : encodeUtf8 s = encodeUtf8 t) : s = t := by
  have hsome : some s = some t := by
    rw [← decodeUtf8_encodeUtf8 s, ← decodeUtf8_encodeUtf8 t, h]
  exact Option.some.inj hsome

/-! ## Hexadecimal digits -/

/-- `data.hex()` -/
def hexdigest (data : List UInt8) : String :=
  String.ofList (data.flatMap fun b =>
    [Nat.digitChar (b.toNat / 16), Nat.digitChar (b.toNat % 16)])

theorem isHex_digitChar : ∀ n < 16, Nat.digitChar n ∈ "0123456789abcdef".toList := by
  decide

theorem mem_hexdigest {data : List UInt8} {c : Char} (h : c ∈ (hexdigest data).toList) :
    c ∈ "0123456789abcdef".toList := by
  rw [hexdigest, String.toList_ofList, List.mem_flatMap] at h
  rcases h with ⟨b, -, hc⟩
  have hb : b.toNat < 256 := b.toNat_lt
  rw [List.mem_cons, List.mem_singleton] at hc
  rcases hc with rfl | rfl
  · exact isHex_digitChar _ (by omega)
  · exact isHex_digitChar _ (by omega)

/-! ## Base64 -/

namespace Base64

/-- The URL-safe alphabet. -/
def alphabet : List Char :=
  "ABCDEFGHIJKLMNOPQRSTUVWXYZabcdefghijklmnopqrstuvwxyz0123456789-_".toList

/-- The character of six bits. -/
def charOf (n : Nat) : Char := alphabet.getD n '='

/-- `base64.urlsafe_b64encode(data)` -/
def encode : List UInt8 → List Char
  | [] => []
  | [a] => [charOf (a.toNat / 4), charOf (a.toNat % 4 * 16), '=', '=']
  | [a, b] =>
    [charOf (a.toNat / 4), charOf (a.toNat % 4 * 16 + b.toNat / 16), charOf (b.toNat % 16 * 4), '=']
  | a :: b :: c :: rest =>
    charOf (a.toNat / 4) :: charOf (a.toNat % 4 * 16 + b.toNat / 16) ::
      charOf (b.toNat % 16 * 4 + c.toNat / 64) :: charOf (c.toNat % 64) :: encode rest

/-- `_urlsafe_decode_translation` -/
def translate (c : Char) : Char :=
  if c = '-' then '+' else if c = '_' then '/' else c

/-- The table of `a2b_base64`: none for what is passed over. -/
def sextet (c : Char) : Option Nat :=
  if 'A' ≤ c ∧ c ≤ 'Z' then some (c.toNat - 65)
  else if 'a' ≤ c ∧ c ≤ 'z' then some (c.toNat - 71)
  else if '0' ≤ c ∧ c ≤ '9' then some (c.toNat + 4)
  else if c = '+' then some 62
  else if c = '/' then some 63
  else none

/-- The loop of `a2b_base64`, not in strict mode: `quad` characters of a group are read, `left`
are the bits not yet written. -/
def a2b : (quad left pads : Nat) → List Char → Option (List UInt8)
  -- incorrect padding, or one character more than a multiple of four
  | quad, _, _, [] => if quad = 0 then some [] else none
  | quad, left, pads, c :: s =>
    if c = '=' then
      if 2 ≤ quad then
        -- the rest of the text is not looked at
        if 4 ≤ quad + (pads + 1) then some [] else a2b quad left (pads + 1) s
      else a2b quad left pads s
    else match sextet c with
      | none => a2b quad left pads s
      | some v => match quad with
        | 0 => a2b 1 v 0 s
        | 1 => (a2b 2 (v % 16) 0 s).map (UInt8.ofNat (left * 4 + v / 16) :: ·)
        | 2 => (a2b 3 (v % 4) 0 s).map (UInt8.ofNat (left * 16 + v / 4) :: ·)
        | _ => (a2b 0 0 0 s).map (UInt8.ofNat (left * 64 + v) :: ·)

/-- `base64.urlsafe_b64decode(s)` -/
def decode (s : List Char) : Option (List UInt8) :=
  -- `s.encode("ascii")`
  if s.all fun c => decide (c.toNat < 128) then a2b 0 0 0 (s.map translate) else none

/-! ### Characters of the alphabet -/

theorem charOf_spec : ∀ n < 64, sextet (translate (charOf n)) = some n ∧
    translate (charOf n) ≠ '=' ∧ charOf n ≠ '=' ∧ charOf n ≠ '.' ∧ (charOf n).toNat < 128 := by
  decide +kernel

variable {n : Nat} {s : List Char}

section Sextets

attribute [local simp] a2b

theorem a2b_first (hn : n < 64) (left pads : Nat) :
    a2b 0 left pads (translate (charOf n) :: s) = a2b 1 n 0 s := by
  rw [a2b, if_neg (charOf_spec n hn).2.1, (charOf_spec n hn).1]
  rfl

theorem a2b_second (hn : n < 64) (left pads : Nat) :
    a2b 1 left pads (translate (charOf n) :: s) =
      (a2b 2 (n % 16) 0 s).map (UInt8.ofNat (left * 4 + n / 16) :: ·) := by
  rw [a2b, if_neg (charOf_spec n hn).2.1, (charOf_spec n hn).1]
  rfl

theorem a2b_third (hn : n < 64) (left pads : Nat) :
    a2b 2 left pads (translate (charOf n) :: s) =
      (a2b 3 (n % 4) 0 s).map (UInt8.ofNat (left * 16 + n / 4) :: ·) := by
  rw [a2b, if_neg (charOf_spec n hn).2.1, (charOf_spec n hn).1]
  rfl

theorem a2b_fourth (hn : n < 64) (left pads : Nat) :
    a2b 3 left pads (translate (charOf n) :: s) =
      (a2b 0 0 0 s).map (UInt8.ofNat (left * 64 + n) :: ·) := by
  rw [a2b, if_neg (charOf_spec n hn).2.1, (charOf_spec n hn).1]
  rfl

end Sextets

/-! ### What is encoded comes back -/

theorem ofNat_eq {b : UInt8} (h : n = b.toNat) : UInt8.ofNat n = b := by
  rw [h, UInt8.ofNat_toNat]

theorem map_cons {data : List UInt8} {b b' : UInt8} (h : b = b') :
    (some data).map (b :: ·) = some (b' :: data) := by
  rw [h]
  rfl

theorem a2b_encode (data : List UInt8) :
    a2b 0 0 0 ((encode data).map translate) = some data := by
  induction data using encode.induct with
  | case1 => rfl
  | case2 a =>
    have ha : a.toNat < 256 := a.toNat_lt
    rw [encode, List.map_cons, List.map_cons, a2b_first (by omega), a2b_second (by omega)]
    -- the two signs of padding end the group
    have hpad : a2b 2 (a.toNat % 4 * 16 % 16) 0 (List.map translate ['=', '=']) = some [] := rfl
    rw [hpad]
    exact map_cons (ofNat_eq (by omega))
  | case3 a b =>
    have ha : a.toNat < 256 := a.toNat_lt
    have hb : b.toNat < 256 := b.toNat_lt
    rw [encode, List.map_cons, List.map_cons, List.map_cons, a2b_first (by omega),
      a2b_second (by omega), a2b_third (by omega)]
    have hpad : a2b 3 (b.toNat % 16 * 4 % 4) 0 (List.map translate ['=']) = some [] := rfl
    rw [hpad, map_cons (ofNat_eq (b := b) (by omega))]
    exact map_cons (ofNat_eq (by omega))
  | case4 a b c rest ih =>
    have ha : a.toNat < 256 := a.toNat_lt
    have hb : b.toNat < 256 := b.toNat_lt
    have hc : c.toNat < 256 := c.toNat_lt
    rw [encode, List.map_cons, List.map_cons, List.map_cons, List.map_cons,
      a2b_first (by omega), a2b_second (by omega), a2b_third (by omega),
      a2b_fourth (by omega), ih, map_cons (ofNat_eq (b := c) (by omega)),
      map_cons (ofNat_eq (b := b) (by omega))]
    exact map_cons (ofNat_eq (by omega))

/-- A character of the alphabet as the texts of tokens need it. -/
def Plain (c : Char) : Prop := c ≠ '=' ∧ c ≠ '.' ∧ c.toNat < 128

theorem plain_charOf (hn : n < 64) : Plain (charOf n) := (charOf_spec n hn).2.2

/-- The padding fills up the last group. -/
theorem encode_eq (data : List UInt8) : ∃ body k, encode data = body ++ List.replicate k '=' ∧
    k < 4 ∧ (body.length + k) % 4 = 0 ∧ ∀ c ∈ body, Plain c := by
  induction data using encode.induct with
  | case1 => exact ⟨[], 0, rfl, by omega, rfl, fun c hc => absurd hc List.not_mem_nil⟩
  | case2 a =>
    have ha : a.toNat < 256 := a.toNat_lt
    refine ⟨[_, _], 2, rfl, by omega, Nat.mod_self 4, ?_⟩
    simp only [List.forall_mem_cons]
    exact ⟨plain_charOf (by omega), plain_charOf (by omega), fun c hc => absurd hc List.not_mem_nil⟩
  | case3 a b =>
    have ha : a.toNat < 256 := a.toNat_lt
    have hb : b.toNat < 256 := b.toNat_lt
    refine ⟨[_, _, _], 1, rfl, by omega, Nat.mod_self 4, ?_⟩
    simp only [List.forall_mem_cons]
    exact ⟨plain_charOf (by omega), plain_charOf (by omega), plain_charOf (by omega),
      fun c hc => absurd hc List.not_mem_nil⟩
  | case4 a b c rest ih =>
    have ha : a.toNat < 256 := a.toNat_lt
    have hb : b.toNat < 256 := b.toNat_lt
    have hc : c.toNat < 256 := c.toNat_lt
    rcases ih with ⟨body, k, heq, hk, hlen, hplain⟩
    refine ⟨_ :: _ :: _ :: _ :: body, k, by rw [encode, heq]; rfl, hk, ?_, ?_⟩
    · simp only [List.length_cons]
      omega
    · simp only [List.forall_mem_cons]
      exact ⟨plain_charOf (by omega), plain_charOf (by omega), plain_charOf (by omega),
        plain_charOf (by omega), hplain⟩

/-- The padding goes, and nothing else. -/
theorem rdropWhile_padding {body : List Char} (hbody : ∀ c ∈ body, Plain c) (k : Nat) :
    (body ++ List.replicate k '=').rdropWhile (· = '=') = body := by
  induction k with
  | zero =>
    rw [List.replicate_zero, List.append_nil, List.rdropWhile_eq_self_iff]
    intro hne
    simpa using (hbody _ (List.getLast_mem hne)).1
  | succ k ih =>
    rw [List.replicate_succ', ← List.append_assoc, List.rdropWhile_concat_pos _ _ _ (by simp), ih]

/-- `_b64(data)` -/
def b64 (data : List UInt8) : List Char := (encode data).rdropWhile (· = '=')

/-- `_unb64(s)` -/
def unb64 (s : List Char) : Option (List UInt8) :=
  decode (s ++ List.replicate ((4 - s.length % 4) % 4) '=')

theorem b64_plain {data : List UInt8} {c : Char} (hc : c ∈ b64 data) : Plain c := by
  rcases encode_eq data with ⟨body, k, heq, -, -, hplain⟩
  rw [b64, heq, rdropWhile_padding hplain] at hc
  exact hplain c hc

theorem unb64_b64 (data : List UInt8) : unb64 (b64 data) = some data := by
  rcases encode_eq data with ⟨body, k, heq, hk, hlen, hplain⟩
  have hbody : b64 data = body := by
    rw [b64, heq, rdropWhile_padding hplain]
  have hpad : (4 - body.length % 4) % 4 = k := by
    omega
  have hascii : (encode data).all (fun c => decide (c.toNat < 128)) = true := by
    rw [heq, List.all_eq_true]
    intro c hc
    rcases List.mem_append.mp hc with hc | hc
    · exact decide_eq_true (hplain c hc).2.2
    · rw [List.eq_of_mem_replicate hc]
      rfl
  rw [unb64, hbody, hpad, ← heq, decode, if_pos hascii, a2b_encode]

end Base64

end AiAgentsSwd.Text
