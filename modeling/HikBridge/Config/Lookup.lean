import HikBridge.Config.Basic
import HikBridge.Lib.JsonDocument

/-!
This module relates the searches of `json_section` and `json_value` to the members of a JSON document:
what the searches pass over, where a section ends, and the conditions under which a lookup finds the
member that it is for.
-/

namespace HikBridge

open Json (Blanks Spells Literal Scalar Member Item Document)
open Search (Avoids)

section Names

variable {name raw text rest : Bytes}

def isLetter (c : UInt8) : Bool := (65 ≤ c && c ≤ 90) || (97 ≤ c && c ≤ 122)

def IsName (name : Bytes) : Prop := name ≠ [] ∧ ∀ c ∈ name, isLetter c = true

def NoLetterFirst (rest : Bytes) : Prop := ∀ c ∈ rest.head?, isLetter c = false

def Mentions (name raw : Bytes) : Prop := nameKey name <:+: nameKey raw

instance (name raw : Bytes) : Decidable (Mentions name raw) :=
  inferInstanceAs (Decidable (_ <:+: _))

theorem IsName.ne_of_mem (h : IsName name) {c : UInt8} (hc : isLetter c = false) : c ∉ name := by
  intro hmem
  rw [h.2 c hmem] at hc
  contradiction

theorem avoids_of_no_quote (h : 34 ∉ text) : Avoids (nameKey name) text rest := by
  intro i hi hstart
  rw [List.drop_eq_getElem_cons hi, List.cons_append, nameKey, List.cons_prefix_cons] at hstart
  apply h
  rw [hstart.1]
  exact List.getElem_mem hi

theorem avoids_string (hname : IsName name) (hraw : ¬Mentions name raw)
    (hrest : NoLetterFirst rest) : Avoids (nameKey name) (nameKey raw) rest := by
  intro i hi hstart
  have hquote : (34 : UInt8) ∉ name := hname.ne_of_mem rfl
  rcases Nat.lt_or_ge ((nameKey raw).drop i).length (nameKey name).length with hlt | hge
  . have hdrop : ∃ before, (nameKey raw).drop i = before ++ [34] := by
      cases i with
      | zero => exact ⟨34 :: raw, rfl⟩
      | succ i =>
        have hi' : i ≤ raw.length := by
          simp only [nameKey, List.length_cons, List.length_append, List.length_nil] at hi
          omega
        exact ⟨raw.drop i, by rw [nameKey, List.drop_succ_cons, List.drop_append_of_le_length hi']⟩
    rcases hdrop with ⟨before, hbefore⟩
    rw [hbefore] at hstart hlt
    have hpre : before ++ [34] <+: nameKey name :=
      List.prefix_of_prefix_length_le (List.prefix_append _ _) hstart (Nat.le_of_lt hlt)
    rcases hpre with ⟨more, hmore⟩
    cases before with
    | nil =>
      -- The occurrence would start with the closing quote.
      rcases List.exists_cons_of_ne_nil hname.1 with ⟨c, cs, rfl⟩
      have hc := hname.2 c List.mem_cons_self
      rw [List.nil_append, List.singleton_append, nameKey, List.cons_prefix_cons, List.cons_append]
        at hstart
      rcases hstart.2 with ⟨tail, htail⟩
      have hfirst : isLetter c = false := hrest c (by rw [← htail]; rfl)
      rw [hfirst] at hc
      contradiction
    | cons x before =>
      rw [nameKey, List.cons_append, List.cons_append, List.cons.injEq] at hmore
      rcases List.eq_nil_or_concat more with rfl | ⟨middle, last, rfl⟩
      . rw [List.append_nil] at hmore
        have hlength := congrArg List.length hmore.2
        rw [nameKey, List.length_cons, ← hlength] at hlt
        simp at hlt
      . rw [List.concat_eq_append, ← List.append_assoc] at hmore
        apply hquote
        rw [← (List.append_inj' hmore.2 rfl).1]
        simp
  . apply hraw
    have hpre : nameKey name <+: (nameKey raw).drop i :=
      List.prefix_of_prefix_length_le hstart (List.prefix_append _ _) hge
    exact hpre.isInfix.trans (List.drop_suffix _ _).isInfix

end Names

section Blanks

variable {text rest : Bytes} {c : UInt8}

theorem blank_cases (h : Json.isBlank c = true) : c = 32 ∨ c = 9 ∨ c = 10 ∨ c = 13 := by
  simpa [Json.isBlank, or_assoc] using h

theorem not_mem_blanks (h : Blanks text) (hc : Json.isBlank c = false) : c ∉ text := by
  intro hmem
  rw [h c hmem] at hc
  contradiction

theorem noLetterFirst_cons (h : isLetter c = false) : NoLetterFirst (c :: rest) := by
  intro d hd
  rw [List.head?_cons, Option.mem_some] at hd
  rw [← hd]
  exact h

theorem noLetterFirst_blanks (h : Blanks text) (hrest : NoLetterFirst rest)
    : NoLetterFirst (text ++ rest) := by
  cases text with
  | nil => exact hrest
  | cons c text =>
    apply noLetterFirst_cons
    rcases blank_cases (h c List.mem_cons_self) with rfl | rfl | rfl | rfl
    all_goals rfl

end Blanks

section Members

variable {α : Type} {textOf : α → Bytes} {stringsOf : α → List Bytes} {name rest : Bytes}
  {members pre : List (Member α)} {m : Member α}

def memberStrings (stringsOf : α → List Bytes) (m : Member α) : List Bytes :=
  m.name.raw :: stringsOf m.value

def Passes (textOf : α → Bytes) (stringsOf : α → List Bytes) (name : Bytes) : Prop :=
  ∀ a rest, (∀ raw ∈ stringsOf a, ¬Mentions name raw) → NoLetterFirst rest
    → Avoids (nameKey name) (textOf a) rest

theorem avoids_blanks {text : Bytes} (h : Blanks text) : Avoids (nameKey name) text rest :=
  avoids_of_no_quote (not_mem_blanks h rfl)

theorem avoids_member (hname : IsName name) (hpass : Passes textOf stringsOf name)
    (hm : ∀ raw ∈ memberStrings stringsOf m, ¬Mentions name raw) (hrest : NoLetterFirst rest)
    : Avoids (nameKey name) (m.text textOf) rest := by
  rcases List.forall_mem_cons.mp hm with ⟨hraw, hvalue⟩
  have hbehind := noLetterFirst_blanks m.behind.2 hrest
  have hcolon : NoLetterFirst (58 :: (m.after.1 ++ (textOf m.value ++ m.behind.1)) ++ rest) :=
    noLetterFirst_cons rfl
  have htail : Avoids (nameKey name) (m.after.1 ++ (textOf m.value ++ m.behind.1)) rest :=
    (avoids_blanks m.after.2).append ((hpass m.value _ hvalue hbehind).append (avoids_blanks m.behind.2))
  have hrest' : Avoids (nameKey name) (m.rest textOf) rest := by
    apply (avoids_blanks m.between.2).append
    apply Avoids.cons _ htail
    rw [nameKey, List.cons_prefix_cons]
    simp
  apply (avoids_blanks m.before.2).append
  apply (avoids_string hname hraw _).append hrest'
  rw [Member.rest, List.append_assoc]
  exact noLetterFirst_blanks m.between.2 hcolon

def leading (textOf : α → Bytes) (members : List (Member α)) : Bytes :=
  members.flatMap fun m => m.text textOf ++ [44]

def trailing (textOf : α → Bytes) (members : List (Member α)) : Bytes :=
  members.flatMap fun m => 44 :: m.text textOf

theorem texts_cons (m : Member α) (members : List (Member α))
    : Member.texts textOf (m :: members) = m.text textOf ++ trailing textOf members := by
  induction members generalizing m with
  | nil => simp [Member.texts, trailing]
  | cons m' members ih =>
    rw [Member.texts, ih m']
    . simp [trailing]
    . simp

theorem texts_split (pre : List (Member α)) (m : Member α) (post : List (Member α))
    : Member.texts textOf (pre ++ m :: post)
        =
      leading textOf pre ++ (m.text textOf ++ trailing textOf post) := by
  induction pre with
  | nil => exact texts_cons m post
  | cons m' pre ih =>
    have hne : pre ++ m :: post ≠ [] := by simp
    rw [List.cons_append, Member.texts]
    . rw [ih]
      simp [leading]
    . simp

theorem avoids_leading (hname : IsName name) (hpass : Passes textOf stringsOf name)
    (hpre : ∀ m ∈ pre, ∀ raw ∈ memberStrings stringsOf m, ¬Mentions name raw)
    : Avoids (nameKey name) (leading textOf pre) rest := by
  induction pre with
  | nil => exact Search.avoids_nil _ _
  | cons m pre ih =>
    rcases List.forall_mem_cons.mp hpre with ⟨hm, hpre⟩
    rw [leading, List.flatMap_cons]
    apply Avoids.append _ (ih hpre)
    apply Avoids.append
    . apply avoids_member hname hpass hm
      exact noLetterFirst_cons rfl
    . exact avoids_of_no_quote (by decide)

theorem avoids_texts (hname : IsName name) (hpass : Passes textOf stringsOf name)
    (hmembers : ∀ m ∈ members, ∀ raw ∈ memberStrings stringsOf m, ¬Mentions name raw)
    (hrest : NoLetterFirst rest) : Avoids (nameKey name) (Member.texts textOf members) rest := by
  rcases List.eq_nil_or_concat members with rfl | ⟨pre, last, rfl⟩
  . exact Search.avoids_nil _ _
  . rw [List.concat_eq_append] at hmembers ⊢
    rw [texts_split]
    apply (avoids_leading hname hpass fun m hm => hmembers m (List.mem_append_left _ hm)).append
    apply Avoids.append
    . apply avoids_member hname hpass (hmembers last (by simp))
      simpa [trailing] using hrest
    . exact Search.avoids_nil _ _

theorem cut_member (hname : IsName name) (hpass : Passes textOf stringsOf name)
    (hpre : ∀ m ∈ pre, ∀ raw ∈ memberStrings stringsOf m, ¬Mentions name raw)
    (hraw : m.name.raw = name) (post : List (Member α)) (rest : Bytes)
    : ∃ before, Search.cut (nameKey name) (Member.texts textOf (pre ++ m :: post) ++ rest)
        = some (before, m.rest textOf ++ (trailing textOf post ++ rest)) := by
  have hkey : m.name.text = nameKey name := by
    rw [Literal.text, hraw]
    rfl
  rw [texts_split, Member.text, hkey]
  simp only [List.append_assoc]
  rw [Search.cut_append_of_avoids (avoids_leading hname hpass hpre),
    Search.cut_append_of_avoids (avoids_blanks m.before.2), Search.cut_self (by simp [nameKey])]
  exact ⟨_, rfl⟩

end Members

section Scalars

variable {value : Json.Value} {name raw text rest : Bytes} {pieces : List Json.Piece}

def isBareByte (c : UInt8) : Bool := isLetter c || Numeral.isDecimal c || c == 43 || c == 45 || c == 46

theorem isBareByte_digits (h : Json.Digits text) : ∀ c ∈ text, isBareByte c = true := by
  intro c hc
  simp [isBareByte, h.2 c hc]

theorem isBareByte_number (h : Json.IsNumber text) : ∀ c ∈ text, isBareByte c = true := by
  cases h with
  | @mk minus int frac exp hminus hint hfrac hexp =>
    have h1 : ∀ c ∈ minus, isBareByte c = true := by
      rcases hminus with rfl | rfl
      . simp
      . exact List.all_eq_true.mp (by decide)
    have h2 : ∀ c ∈ frac, isBareByte c = true := by
      rcases hfrac with rfl | ⟨digits, rfl, hdigits⟩
      . simp
      . exact List.forall_mem_cons.mpr ⟨rfl, isBareByte_digits hdigits⟩
    have h3 : ∀ c ∈ exp, isBareByte c = true := by
      rcases hexp with rfl | ⟨e, sign, digits, rfl, he, hsign, hdigits⟩
      . simp
      . have hbyte : isBareByte e = true := by
          rcases he with rfl | rfl
          . rfl
          . rfl
        have hsigns : ∀ c ∈ sign, isBareByte c = true := by
          rcases hsign with rfl | rfl | rfl
          . simp
          . exact List.all_eq_true.mp (by decide)
          . exact List.all_eq_true.mp (by decide)
        exact List.forall_mem_cons.mpr ⟨hbyte, List.forall_mem_append.mpr ⟨hsigns, isBareByte_digits hdigits⟩⟩
    exact List.forall_mem_append.mpr
      ⟨List.forall_mem_append.mpr ⟨List.forall_mem_append.mpr ⟨h1, isBareByte_digits hint.1⟩, h2⟩, h3⟩

theorem isBareByte_bare (h : Json.Bare value text) : ∀ c ∈ text, isBareByte c = true := by
  cases h with
  | number hnumber => exact isBareByte_number hnumber
  | _ => exact List.all_eq_true.mp (by decide)

theorem bare_ne_nil (h : Json.Bare value text) : text ≠ [] := by
  cases h with
  | number hnumber =>
    rcases hnumber.exists_head with ⟨c, tail, rfl, -⟩
    simp
  | _ => simp

theorem not_mem_bare (h : Json.Bare value text) {c : UInt8} (hc : isBareByte c = false) : c ∉ text := by
  intro hmem
  rw [isBareByte_bare h c hmem] at hc
  contradiction

theorem passes_scalar (hname : IsName name) : Passes Scalar.text Scalar.strings name := by
  intro s rest hs hrest
  cases s with
  | string s => exact avoids_string hname (hs s.raw (by simp [Scalar.strings])) hrest
  | bare value text h => exact avoids_of_no_quote (not_mem_bare h rfl)

theorem passes_item (hname : IsName name) : Passes Item.text Item.strings name := by
  intro item rest hitem hrest
  cases item with
  | scalar s => exact passes_scalar hname s rest hitem hrest
  | object members blanks =>
    have hopen : ¬ nameKey name <+: 123 :: (Json.innerText Scalar.text members blanks ++ [125] ++ rest) := by
      rw [nameKey, List.cons_prefix_cons]
      simp
    apply Avoids.cons hopen
    apply Avoids.append
    . cases members with
      | nil => exact avoids_blanks blanks.2
      | cons m members =>
        apply avoids_texts hname (passes_scalar hname)
        . intro m' hm' raw hraw
          exact hitem raw (List.mem_flatMap.mpr ⟨m', hm', hraw⟩)
        . exact noLetterFirst_cons rfl
    . exact avoids_of_no_quote (by decide)

def EndsValue (rest : Bytes) : Prop := ∀ c ∈ rest.head?, c = 44 ∨ c = 125

theorem isBlank_of_isBareByte {c : UInt8} (h : isBareByte c = true) : isBlank c = false := by
  by_contra hcontra
  rw [Bool.not_eq_false] at hcontra
  have hcases : c = 32 ∨ c = 9 ∨ c = 13 ∨ c = 10 := by simpa [isBlank, or_assoc] using hcontra
  rcases hcases with rfl | rfl | rfl | rfl
  all_goals contradiction

theorem trim_of_no_blank (hne : text ≠ []) (h : ∀ c ∈ text, isBareByte c = true) {more : Bytes}
    (hmore : Blanks more) : trim (text ++ more) = text := by
  have hmore' : ∀ c ∈ more.reverse, isBlank c = true := by
    intro c hc
    rcases blank_cases (hmore c (List.mem_reverse.mp hc)) with rfl | rfl | rfl | rfl
    all_goals rfl
  rw [trim_append hne fun c hc => isBlank_of_isBareByte (h c hc), List.dropWhile_eq_nil_iff.mpr hmore']
  simp

theorem scalarAt_bare (h : Json.Bare value text) {gap : Bytes} (hgap : Blanks gap)
    (hrest : EndsValue rest) : scalarAt (text ++ (gap ++ rest)) = some text := by
  have hbytes := isBareByte_bare h
  have hne := bare_ne_nil h
  have hscalar : ∀ c ∈ text, (!endsScalar c) = true := by
    intro c hc
    have hbyte := hbytes c hc
    by_contra hcontra
    have hends : endsScalar c = true := by simpa using hcontra
    have hcases : c = 44 ∨ c = 125 ∨ c = 13 ∨ c = 10 := by
      simpa [endsScalar, or_assoc] using hends
    rcases hcases with rfl | rfl | rfl | rfl
    all_goals contradiction
  have hgap' : Blanks ((gap ++ rest).takeWhile fun c => !endsScalar c) := by
    have hstop : (rest.takeWhile fun c => !endsScalar c) = [] := by
      cases rest with
      | nil => rfl
      | cons c rest =>
        rw [List.takeWhile_cons_of_neg]
        rcases hrest c rfl with rfl | rfl
        all_goals decide
    intro c hc
    rw [List.takeWhile_append, hstop, List.append_nil] at hc
    split at hc
    . exact hgap c hc
    . exact hgap c ((List.takeWhile_prefix _).mem hc)
  rcases List.exists_cons_of_ne_nil hne with ⟨first, tail, hfirst⟩
  have hquote : first ≠ 34 := by
    rintro rfl
    have hnot : (34 : UInt8) ∉ text := not_mem_bare h rfl
    exact hnot (by simp [hfirst])
  have hat : scalarAt (text ++ (gap ++ rest))
      = some (trim ((text ++ (gap ++ rest)).takeWhile fun c => !endsScalar c)) := by
    rw [hfirst, List.cons_append]
    unfold scalarAt
    split
    . contradiction
    . next heq => exact absurd (List.cons.inj heq).1 hquote
    . rfl
  rw [hat, List.takeWhile_append_of_pos hscalar, trim_of_no_blank hne hbytes hgap']

end Scalars

section Sections

variable {text raw rest body : Bytes} {pieces : List Json.Piece} {prev : UInt8}

def Closes (rest body : Bytes) : Prop := ∀ prev, prev ≠ 92 → sectionBody prev 1 false rest = some body

theorem closes_brace : Closes (125 :: rest) [] := by
  intro prev _
  simp [sectionBody]

theorem closes_plain (htext : ∀ c ∈ text, c ≠ 34 ∧ c ≠ 92 ∧ c ≠ 123 ∧ c ≠ 125)
    (h : Closes rest body) : Closes (text ++ rest) (text ++ body) := by
  induction text with
  | nil => exact h
  | cons c text ih =>
    rcases List.forall_mem_cons.mp htext with ⟨⟨hquote, hescape, hopen, hclose⟩, htext⟩
    intro prev _
    rw [List.cons_append, sectionBody]
    simp [hquote, hopen, hclose, ih htext c hescape]

theorem sectionBody_quoted (htext : 34 ∉ text)
    : sectionBody prev 1 true (text ++ rest)
        =
      (sectionBody (text.getLast?.getD prev) 1 true rest).map (text ++ ·) := by
  induction text generalizing prev with
  | nil => simp
  | cons c text ih =>
    rw [List.mem_cons, not_or] at htext
    rw [List.cons_append, sectionBody]
    simp only [Ne.symm htext.1, false_and, ↓reduceIte]
    rw [ih htext.2, List.getLast?_cons, Option.getD_some, Option.map_map]
    rfl

theorem sectionBody_string (hspells : Spells pieces raw) (hraw : raw.getLast?.getD prev ≠ 92)
    (h : Closes rest body)
    : sectionBody prev 1 true (raw ++ 34 :: rest) = some (raw ++ 34 :: body) := by
  induction hspells generalizing prev with
  | nil =>
    rw [List.nil_append, sectionBody]
    have hprev : prev ≠ 92 := hraw
    simp [hprev, h 34 (by decide)]
  | @plain c pieces text _ hquote hescape _ ih =>
    rw [List.getLast?_cons, Option.getD_some] at hraw
    rw [List.cons_append, sectionBody]
    simp [hquote, ih hraw]
  | @escape c b pieces text _ _ ih =>
    rw [List.getLast?_cons, Option.getD_some, List.getLast?_cons, Option.getD_some] at hraw
    rw [List.cons_append, List.cons_append, sectionBody]
    simp [sectionBody, ih hraw]
  | @unicode digits u pieces text hlength hu _ ih =>
    have hdigit : ∀ c ∈ digits, c ≠ 34 ∧ c ≠ 92 := by
      intro c hc
      have hsome := Numeral.digitVal_isSome_of_value hu c hc
      constructor
      all_goals
        rintro rfl
        contradiction
    have hquote : (34 : UInt8) ∉ 92 :: 117 :: digits := by
      simp only [List.mem_cons, not_or]
      exact ⟨by decide, by decide, fun hmem => (hdigit 34 hmem).1 rfl⟩
    have hlast : (92 :: 117 :: digits).getLast? = digits.getLast? := by
      cases digits with
      | nil => contradiction
      | cons d digits => simp [List.getLast?_cons_cons]
    rw [← List.cons_append, ← List.cons_append, List.append_assoc, sectionBody_quoted hquote, ih]
    . simp
    . rw [hlast]
      rw [← List.cons_append, ← List.cons_append, List.getLast?_append, hlast, Option.getD_or] at hraw
      exact hraw

theorem closes_string (s : Literal) (hend : s.raw.getLast? ≠ some 92) (h : Closes rest body)
    : Closes (s.text ++ rest) (s.text ++ body) := by
  intro prev hprev
  have hraw : s.raw.getLast?.getD 34 ≠ 92 := by
    cases hlast : s.raw.getLast? with
    | none => decide
    | some c =>
      rw [hlast] at hend
      simpa using hend
  rw [Literal.text, List.cons_append, List.append_assoc, List.singleton_append, sectionBody]
  simp [hprev, sectionBody_string s.spells hraw h]

theorem closes_blanks (htext : Blanks text) (h : Closes rest body)
    : Closes (text ++ rest) (text ++ body) := by
  apply closes_plain _ h
  intro c hc
  rcases blank_cases (htext c hc) with rfl | rfl | rfl | rfl
  all_goals decide

theorem closes_separator {c : UInt8} (hc : c = 44 ∨ c = 58) (h : Closes rest body)
    : Closes (c :: rest) (c :: body) := by
  have htext : ∀ d ∈ [c], d ≠ 34 ∧ d ≠ 92 ∧ d ≠ 123 ∧ d ≠ 125 := by
    intro d hd
    rw [List.mem_singleton.mp hd]
    rcases hc with rfl | rfl
    all_goals decide
  exact closes_plain htext h

def NoFinalBackslash (strings : List Bytes) : Prop := ∀ raw ∈ strings, raw.getLast? ≠ some 92

instance (strings : List Bytes) : Decidable (NoFinalBackslash strings) :=
  List.decidableBAll _ strings

theorem closes_scalar {s : Scalar} (hs : NoFinalBackslash s.strings) (h : Closes rest body)
    : Closes (s.text ++ rest) (s.text ++ body) := by
  cases s with
  | string s => exact closes_string s (hs s.raw (by simp [Scalar.strings])) h
  | bare value text hbare =>
    apply closes_plain _ h
    intro c hc
    have hbyte := isBareByte_bare hbare c hc
    refine ⟨?_, ?_, ?_, ?_⟩
    all_goals
      rintro rfl
      contradiction

theorem closes_member {m : Member Scalar} (hm : NoFinalBackslash (memberStrings Scalar.strings m))
    (h : Closes rest body) : Closes (m.text Scalar.text ++ rest) (m.text Scalar.text ++ body) := by
  rcases List.forall_mem_cons.mp hm with ⟨hname, hvalue⟩
  simp only [Member.text, Member.rest, List.append_assoc, List.cons_append]
  apply closes_blanks m.before.2
  apply closes_string m.name hname
  apply closes_blanks m.between.2
  apply closes_separator (.inr rfl)
  apply closes_blanks m.after.2
  apply closes_scalar hvalue
  exact closes_blanks m.behind.2 h

theorem closes_texts {members : List (Member Scalar)}
    (hmembers : NoFinalBackslash (members.flatMap (memberStrings Scalar.strings)))
    (h : Closes rest body)
    : Closes (Member.texts Scalar.text members ++ rest) (Member.texts Scalar.text members ++ body) := by
  induction members with
  | nil => exact h
  | cons m members ih =>
    rw [NoFinalBackslash, List.flatMap_cons, List.forall_mem_append] at hmembers
    cases members with
    | nil => exact closes_member hmembers.1 h
    | cons m' members =>
      simp only [Member.texts, List.append_assoc, List.cons_append]
      exact closes_member hmembers.1 (closes_separator (.inl rfl) (ih hmembers.2))

theorem sectionBody_innerText {members : List (Member Scalar)} {blanks : Json.Gap}
    (hmembers : NoFinalBackslash (members.flatMap (memberStrings Scalar.strings))) (rest : Bytes)
    : sectionBody 123 1 false (Json.innerText Scalar.text members blanks ++ 125 :: rest)
        = some (Json.innerText Scalar.text members blanks) := by
  have hbrace : Closes (125 :: rest) [] := closes_brace
  cases members with
  | nil => simpa [Json.innerText] using closes_blanks blanks.2 hbrace 123 (by decide)
  | cons m members =>
    simpa [Json.innerText] using closes_texts hmembers hbrace 123 (by decide)

end Sections
end HikBridge
