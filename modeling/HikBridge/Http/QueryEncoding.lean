import HikBridge.Http.ReadHttpRequest

/-!
This module contains the encoding of a query that clients use, and that `parse_query` reads the query
back.
-/

namespace HikBridge

def unreserved (c : UInt8) : Bool :=
  (48 ≤ c && c ≤ 57) || (65 ≤ c && c ≤ 90) || (97 ≤ c && c ≤ 122)
    || c == 45 || c == 46 || c == 95 || c == 126 || c == 42

/--
The codes of a byte in `application/x-www-form-urlencoded`. Any byte may be written with two hexadecimal
digits of either case.
-/
inductive EncodesByte (c : UInt8) : Bytes → Prop where
  | literal (h : unreserved c = true) : EncodesByte c [c]
  | plus (h : c = 32) : EncodesByte c [43]
  | percent (high low : UInt8) (x y : Nat) (hhigh : Numeral.digitVal high = some x)
      (hlow : Numeral.digitVal low = some y) (h : c.toNat = 16 * x + y) : EncodesByte c [37, high, low]

inductive Encodes : Bytes → Bytes → Prop where
  | nil : Encodes [] []
  | cons {c : UInt8} {value code text : Bytes} (hc : EncodesByte c code) (h : Encodes value text)
      : Encodes (c :: value) (code ++ text)

inductive EncodesQuery : List (Bytes × Bytes) → Bytes → Prop where
  | last {key value name text : Bytes} (hkey : Encodes key name) (hvalue : Encodes value text)
      : EncodesQuery [(key, value)] (name ++ 61 :: text)
  | cons {key value name text rest : Bytes} {pairs : List (Bytes × Bytes)} (hkey : Encodes key name)
      (hvalue : Encodes value text) (h : EncodesQuery pairs rest)
      : EncodesQuery ((key, value) :: pairs) (name ++ 61 :: text ++ 38 :: rest)

section Values

variable {c : UInt8} {value code text rest : Bytes}

theorem urlDecode_cons (hplus : c ≠ 43) (hpercent : c ≠ 37) : urlDecode (c :: rest) = c :: urlDecode rest := by
  rw [urlDecode]
  . intro h
    exact absurd h hplus
  . intro _ _ _ h
    exact absurd h hpercent

theorem urlDecode_code (h : EncodesByte c code) : urlDecode (code ++ rest) = c :: urlDecode rest := by
  cases h with
  | literal hc =>
    apply urlDecode_cons
    . rintro rfl
      contradiction
    . rintro rfl
      contradiction
  | plus hc =>
    rw [hc]
    rfl
  | percent high low x y hhigh hlow hc =>
    show urlDecode (37 :: high :: low :: rest) = _
    rw [urlDecode, hhigh, hlow]
    dsimp only
    rw [← hc, UInt8.ofNat_toNat]

theorem urlDecode_of_encodes (h : Encodes value text) : urlDecode text = value := by
  induction h with
  | nil => rfl
  | cons hc _ ih => rw [urlDecode_code hc, ih]

theorem exists_encodes (value : Bytes) : ∃ text, Encodes value text := by
  induction value with
  | nil => exact ⟨[], .nil⟩
  | cons c value ih =>
    obtain ⟨text, h⟩ := ih
    have hc := c.toNat_lt
    have hhigh : c.toNat / 16 < 16 := by omega
    have hlow : c.toNat % 16 < 16 := by omega
    have hcode := EncodesByte.percent (c := c) _ _ _ _ (Numeral.digitVal_digitChar hhigh)
      (Numeral.digitVal_digitChar hlow) (by omega)
    exact ⟨_, .cons hcode h⟩

theorem digitVal_ne_separator {d : UInt8} {x : Nat} (h : Numeral.digitVal d = some x) : d ≠ 38 ∧ d ≠ 61 := by
  constructor
  . rintro rfl
    cases h
  . rintro rfl
    cases h

theorem code_no_separator (h : EncodesByte c code) : ∀ d ∈ code, d ≠ 38 ∧ d ≠ 61 := by
  cases h with
  | literal hc =>
    intro d hd
    rw [List.mem_singleton.mp hd]
    constructor
    . rintro rfl
      contradiction
    . rintro rfl
      contradiction
  | plus => simp
  | percent high low x y hhigh hlow =>
    have hhigh := digitVal_ne_separator hhigh
    have hlow := digitVal_ne_separator hlow
    simp [hhigh, hlow]

theorem no_separator_of_encodes (h : Encodes value text) : ∀ d ∈ text, d ≠ 38 ∧ d ≠ 61 := by
  induction h with
  | nil => simp
  | cons hc _ ih =>
    intro d hd
    rcases List.mem_append.mp hd with hd | hd
    . exact code_no_separator hc d hd
    . exact ih d hd

end Values

section Query

variable {key value name text rest : Bytes} {pairs : List (Bytes × Bytes)}

theorem splitAtFirst_append {sep : UInt8} (h : sep ∉ name)
    : splitAtFirst sep (name ++ sep :: text) = (name, text) := by
  have hall : ∀ d ∈ name, (d != sep) = true := by
    intro d hd
    rw [bne_iff_ne]
    rintro rfl
    exact h hd
  unfold splitAtFirst
  rw [List.takeWhile_append_of_pos hall, List.dropWhile_append_of_pos hall]
  simp

theorem parameter_of_encodes (hkey : Encodes key name) (hvalue : Encodes value text)
    : parameter (name ++ 61 :: text) = (key, value) := by
  have hname : 61 ∉ name := fun h => (no_separator_of_encodes hkey 61 h).2 rfl
  unfold parameter
  rw [splitAtFirst_append hname]
  dsimp only
  rw [urlDecode_of_encodes hkey, urlDecode_of_encodes hvalue]

theorem no_ampersand_of_encodes (hkey : Encodes key name) (hvalue : Encodes value text)
    : ∀ d ∈ name ++ 61 :: text, (d == 38) = false := by
  intro d hd
  rw [beq_eq_false_iff_ne]
  rcases List.mem_append.mp hd with hd | hd
  . exact (no_separator_of_encodes hkey d hd).1
  . rcases List.mem_cons.mp hd with rfl | hd
    . decide
    . exact (no_separator_of_encodes hvalue d hd).1

theorem parameters_of_encodesQuery (h : EncodesQuery pairs text)
    : (text.splitOn 38).map parameter = pairs := by
  induction h with
  | last hkey hvalue =>
    unfold List.splitOn
    rw [List.splitOnP_eq_singleton (no_ampersand_of_encodes hkey hvalue), List.map_singleton,
      parameter_of_encodes hkey hvalue]
  | cons hkey hvalue _ ih =>
    unfold List.splitOn at ih ⊢
    rw [List.splitOnP_append_cons_of_forall_mem (no_ampersand_of_encodes hkey hvalue) 38 rfl, List.map_cons,
      parameter_of_encodes hkey hvalue, ih]

/--
An encoded query is read as the table of the last values for its names.
-/
theorem parseQuery_of_encodesQuery (h : EncodesQuery pairs text)
    : parseQuery text = fun key => lastValue key pairs := by
  funext key
  rw [parseQuery_apply, parameters_of_encodesQuery h]

-- `a=1&a=%2b+`
theorem parseQuery_repeatedName
    : parseQuery [97, 61, 49, 38, 97, 61, 37, 50, 98, 43]
        =
      fun key => lastValue key [([97], [49]), ([97], [43, 32])] := by
  have hname : Encodes [97] [97] := .cons (.literal rfl) .nil
  have hone : Encodes [49] [49] := .cons (.literal rfl) .nil
  have hvalue : Encodes [43, 32] [37, 50, 98, 43] :=
    .cons (.percent 50 98 2 11 rfl rfl rfl) (.cons (.plus rfl) .nil)
  exact parseQuery_of_encodesQuery (.cons hname hone (.last hname hvalue))

end Query

end HikBridge
