import HikBridge.Config.Lookup

/-!
This module contains what a lookup in `config.json` gives for a JSON document, compared with the member
that the document has.
-/

namespace HikBridge

open Json (Blanks Literal Scalar Member Item Document)

section Finding

variable {α : Type} {textOf : α → Bytes} {stringsOf : α → List Bytes} {name rest : Bytes}
  {members post : List (Member α)} {m : Member α}

def named (name : Bytes) (members : List (Member α)) : Option (Member α) :=
  members.find? fun m => m.name.value == name

def fromName (name : Bytes) (members : List (Member α)) : List (Member α) :=
  members.dropWhile fun m => !(m.name.value == name)

/--
No string that the search for the name comes to before the member mentions the name, and the name of
the member is spelled without escapes.
-/
def Reached (stringsOf : α → List Bytes) (name : Bytes) (members : List (Member α)) : Prop :=
  (∀ m ∈ members.takeWhile fun m => !(m.name.value == name),
    ∀ raw ∈ memberStrings stringsOf m, ¬Mentions name raw)
  ∧ ∀ m ∈ named name members, m.name.raw = name

instance (stringsOf : α → List Bytes) (name : Bytes) (members : List (Member α))
    : Decidable (Reached stringsOf name members) :=
  inferInstanceAs (Decidable ((∀ m ∈ members.takeWhile _, ∀ raw ∈ memberStrings stringsOf m, _)
    ∧ ∀ m ∈ named name members, _))

theorem Reached.of_none (h : Reached stringsOf name members) (hnone : named name members = none)
    : ∀ m ∈ members, ∀ raw ∈ memberStrings stringsOf m, ¬Mentions name raw := by
  have hall : members.takeWhile (fun m => !(m.name.value == name)) = members := by
    rw [List.takeWhile_eq_self_iff]
    intro m hm
    simpa using List.find?_eq_none.mp hnone m hm
  intro m hm
  apply h.1
  rwa [hall]

theorem Reached.of_some (h : Reached stringsOf name members) (hsome : named name members = some m)
    : ∃ pre post, members = pre ++ m :: post ∧ fromName name members = m :: post
        ∧ (∀ m ∈ pre, ∀ raw ∈ memberStrings stringsOf m, ¬Mentions name raw) ∧ m.name.raw = name := by
  rcases List.find?_eq_some_iff_append.mp hsome with ⟨hm, pre, post, rfl, hpre⟩
  refine ⟨pre, post, rfl, ?_, ?_, h.2 m hsome⟩
  . rw [fromName, List.dropWhile_append_of_pos hpre]
    simp [hm]
  . have hall : (pre ++ m :: post).takeWhile (fun m => !(m.name.value == name)) = pre := by
      rw [List.takeWhile_append_of_pos hpre]
      simp [hm]
    intro m' hm'
    apply h.1
    rwa [hall]

theorem endsValue_trailing (hrest : EndsValue rest) : EndsValue (trailing textOf post ++ rest) := by
  cases post with
  | nil => exact hrest
  | cons m' post =>
    intro c hc
    rw [trailing, List.flatMap_cons, List.cons_append, List.cons_append, List.head?_cons,
      Option.mem_some] at hc
    exact .inl hc.symm

end Finding

section Values

variable {α : Type} {textOf : α → Bytes} {name text before rest : Bytes} {m : Member α} {s : Scalar}

def taken : Scalar → Bytes
  | .string s => s.raw.takeWhile (· != 34)
  | .bare _ text _ => text

theorem dropWhile_blanks {p : UInt8 → Bool} {c : UInt8} {gap : Bytes} (hgap : Blanks gap)
    (hp : ∀ c, Json.isBlank c = true → p c = true) (hc : p c = false)
    : (gap ++ c :: rest).dropWhile p = c :: rest := by
  rw [List.dropWhile_append_of_pos fun d hd => hp d (hgap d hd), List.dropWhile_cons_of_neg (by simp [hc])]

theorem blank_ne {c d : UInt8} (hd : Json.isBlank d = false) (h : Json.isBlank c = true)
    : (c != d) = true := by
  rw [bne_iff_ne]
  rintro rfl
  rw [h] at hd
  contradiction

theorem isSpace_of_blank {c : UInt8} (h : Json.isBlank c = true) : Bytes.isSpace c = true := by
  rcases blank_cases h with rfl | rfl | rfl | rfl
  all_goals rfl

theorem scalarAt_quote (raw rest : Bytes)
    : scalarAt (34 :: (raw ++ 34 :: rest)) = some (raw.takeWhile (· != 34)) := by
  have hmem : (34 : UInt8) ∈ raw ++ 34 :: rest := by simp
  simp only [scalarAt, if_pos hmem]
  by_cases hraw : (34 : UInt8) ∈ raw
  . rcases List.append_of_mem hraw with ⟨xs, ys, rfl⟩
    congr 1
    rw [List.append_assoc, List.cons_append]
    induction xs with
    | nil => simp
    | cons x xs ih =>
      by_cases hx : x = 34
      . simp [hx]
      . simp [hx, ih (by simp) (by simp)]
  . have hall : ∀ c ∈ raw, (c != 34) = true := by
      intro c hc
      rw [bne_iff_ne]
      rintro rfl
      exact hraw hc
    rw [List.takeWhile_append_of_pos hall, List.takeWhile_cons_of_neg (by decide), List.append_nil,
      List.takeWhile_eq_self_iff.mpr hall]

theorem scalarAt_text {gap : Bytes} (hgap : Blanks gap) (hrest : EndsValue rest)
    : scalarAt (s.text ++ (gap ++ rest)) = some (taken s) := by
  cases s with
  | string s =>
    rw [Scalar.text, Literal.text, List.cons_append, List.append_assoc, List.singleton_append]
    exact scalarAt_quote s.raw _
  | bare value text h => exact scalarAt_bare h hgap hrest

theorem isSpace_head (s : Scalar) (rest : Bytes)
    : (s.text ++ rest).dropWhile Bytes.isSpace = s.text ++ rest := by
  have hhead : ∃ c tail, s.text = c :: tail ∧ Bytes.isSpace c = false := by
    cases s with
    | string s => exact ⟨34, s.raw ++ [34], rfl, rfl⟩
    | bare value text h =>
      rcases List.exists_cons_of_ne_nil (bare_ne_nil h) with ⟨c, tail, rfl⟩
      refine ⟨c, tail, rfl, ?_⟩
      have hbyte := isBareByte_bare h c List.mem_cons_self
      by_contra hcontra
      rw [Bool.not_eq_false, Bytes.isSpace, decide_eq_true_iff] at hcontra
      revert hbyte
      rcases hcontra with rfl | ⟨hlow, hhigh⟩
      . decide
      . have hcases : c = 9 ∨ c = 10 ∨ c = 11 ∨ c = 12 ∨ c = 13 := by
          rw [UInt8.le_iff_toNat_le] at hlow hhigh
          simp only [← UInt8.toNat_inj]
          have hlow' : 9 ≤ c.toNat := hlow
          have hhigh' : c.toNat ≤ 13 := hhigh
          simp only [UInt8.reduceToNat]
          omega
        rcases hcases with rfl | rfl | rfl | rfl | rfl
        all_goals decide
  rcases hhead with ⟨c, tail, htext, hc⟩
  rw [htext, List.cons_append, List.dropWhile_cons_of_neg (by simp [hc])]

theorem jsonValue_of_cut (hvalue : textOf m.value = s.text) (hrest : EndsValue rest)
    (hcut : Search.cut (nameKey name) text = some (before, m.rest textOf ++ rest))
    : jsonValue text name = some (taken s) := by
  have hcolon : (m.rest textOf ++ rest).dropWhile (· != 58)
      = 58 :: (m.after.1 ++ (s.text ++ (m.behind.1 ++ rest))) := by
    rw [Member.rest, hvalue, List.append_assoc, List.cons_append,
      dropWhile_blanks m.between.2 (fun c => blank_ne rfl) rfl]
    simp
  have hspace : (m.after.1 ++ (s.text ++ (m.behind.1 ++ rest))).dropWhile Bytes.isSpace
      = s.text ++ (m.behind.1 ++ rest) := by
    rw [List.dropWhile_append_of_pos fun c hc => isSpace_of_blank (m.after.2 c hc), isSpace_head]
  rw [jsonValue, hcut]
  dsimp only
  rw [hcolon]
  dsimp only
  rw [hspace, scalarAt_text m.behind.2 hrest]

theorem jsonValue_of_cut_none (h : Search.cut (nameKey name) text = none)
    : jsonValue text name = none := by
  rw [jsonValue, h]

theorem taken_eq_read_iff (s : Scalar) : taken s = s.read ↔ ∀ raw ∈ s.strings, 92 ∉ raw := by
  cases s with
  | bare value text h => simp [taken, Scalar.read, Scalar.strings]
  | string s =>
    rw [taken, Scalar.read, Scalar.strings, List.forall_mem_singleton]
    constructor
    . intro htaken hraw
      by_cases hquote : (34 : UInt8) ∈ s.raw
      . have hmem : (34 : UInt8) ∈ s.value := Json.quote_mem_decode s.spells hquote
        rw [← htaken] at hmem
        simpa using List.mem_takeWhile_imp hmem
      . have hall : s.raw.takeWhile (· != 34) = s.raw := by
          rw [List.takeWhile_eq_self_iff]
          intro c hc
          rw [bne_iff_ne]
          rintro rfl
          exact hquote hc
        have hlength := Json.length_decode_lt s.spells hraw
        rw [hall] at htaken
        rw [htaken] at hlength
        exact Nat.lt_irrefl _ hlength
    . intro hraw
      rcases Json.spells_of_no_backslash s.spells hraw with ⟨hquote, hdecode⟩
      rw [Literal.value, hdecode, List.takeWhile_eq_self_iff]
      intro c hc
      rw [bne_iff_ne]
      rintro rfl
      exact hquote hc

end Values

section Sections

variable {d : Document} {name : Bytes} {m : Member Item} {members : List (Member Scalar)}

/--
The search for a section finds its member, and the braces tell where it ends: a section that is no
object has no brace behind it, and no string of one that is ends with a backslash.
-/
def SectionReached (d : Document) (name : Bytes) : Prop :=
  Reached Item.strings name d.members
  ∧ ∀ m ∈ named name d.members,
    match m.value with
    | .scalar _ => 123 ∉ Member.texts Item.text (fromName name d.members)
    | .object members _ => NoFinalBackslash (members.flatMap (memberStrings Scalar.strings))

def sectionMembers (d : Document) (name : Bytes) : List (Member Scalar) :=
  match named name d.members with
  | some m =>
    match m.value with
    | .object members _ => members
    | .scalar _ => []
  | none => []

theorem text_eq (d : Document)
    : d.text
        =
      (d.before.1 ++ [123]) ++ (Json.innerText Item.text d.members d.blanks ++ 125 :: d.after.1) := by
  simp [Document.text]

theorem noLetterFirst_close (d : Document) : NoLetterFirst (125 :: d.after.1) := noLetterFirst_cons rfl

theorem avoids_open (d : Document) {rest : Bytes}
    : Search.Avoids (nameKey name) (d.before.1 ++ [123]) rest :=
  (avoids_blanks d.before.2).append (avoids_of_no_quote (by decide))

theorem cut_document_none (hname : IsName name) (h : Reached Item.strings name d.members)
    (hnone : named name d.members = none) : Search.cut (nameKey name) d.text = none := by
  have hinner : Search.Avoids (nameKey name) (Json.innerText Item.text d.members d.blanks)
      (125 :: d.after.1) := by
    unfold Json.innerText
    split
    . exact avoids_blanks d.blanks.2
    . exact avoids_texts hname (passes_item hname) (h.of_none hnone) (noLetterFirst_close d)
  have hclose : Search.Avoids (nameKey name) (125 :: d.after.1) [] := by
    apply avoids_of_no_quote
    rw [List.mem_cons, not_or]
    exact ⟨by decide, not_mem_blanks d.after.2 rfl⟩
  rw [← List.append_nil (125 :: d.after.1)] at hinner
  have hall := Search.cut_append_of_avoids ((avoids_open d).append (hinner.append hclose))
  rw [List.append_nil] at hall
  rw [text_eq, hall]
  simp [Search.cut, nameKey]

theorem cut_document_some (hname : IsName name) (h : Reached Item.strings name d.members)
    (hsome : named name d.members = some m)
    : ∃ before post, fromName name d.members = m :: post
        ∧ Search.cut (nameKey name) d.text
          = some (before, m.rest Item.text ++ (trailing Item.text post ++ 125 :: d.after.1)) := by
  rcases h.of_some hsome with ⟨pre, post, hmembers, hfrom, hpre, hraw⟩
  rcases cut_member hname (passes_item hname) hpre hraw post (125 :: d.after.1) with
    ⟨before, hcut⟩
  have hne : d.members ≠ [] := by simp [hmembers]
  rw [text_eq, Json.innerText_of_ne_nil hne, Search.cut_append_of_avoids (avoids_open d), hmembers,
    hcut]
  exact ⟨_, post, by rw [← hmembers]; exact hfrom, rfl⟩

theorem jsonSection_text (hname : IsName name) (h : SectionReached d name)
    : ∃ blanks, jsonSection d.text name
        = Json.innerText Scalar.text (sectionMembers d name) blanks := by
  rw [jsonSection, sectionMembers]
  cases hfound : named name d.members with
  | none =>
    rw [cut_document_none hname h.1 hfound]
    exact ⟨⟨[], Json.blanks_nil⟩, rfl⟩
  | some m =>
    rcases cut_document_some hname h.1 hfound with ⟨before, post, hfrom, hcut⟩
    have hm := h.2 m hfound
    rw [hcut]
    dsimp only
    cases hvalue : m.value with
    | scalar s =>
      rw [hvalue, hfrom, texts_cons] at hm
      have hno : (123 : UInt8) ∉ m.rest Item.text ++ (trailing Item.text post ++ 125 :: d.after.1) := by
        have hafter : (123 : UInt8) ∉ d.after.1 := not_mem_blanks d.after.2 rfl
        simp only [Member.text, List.mem_append, not_or] at hm
        simp [hm.1.2.2, hm.2, hafter]
      have hall : (m.rest Item.text ++ (trailing Item.text post ++ 125 :: d.after.1)).dropWhile (· != 123)
          = [] := by
        rw [List.dropWhile_eq_nil_iff]
        intro c hc
        rw [bne_iff_ne]
        rintro rfl
        exact hno hc
      rw [hall]
      exact ⟨⟨[], Json.blanks_nil⟩, rfl⟩
    | object members blanks =>
      rw [hvalue] at hm
      have hopen : (m.rest Item.text ++ (trailing Item.text post ++ 125 :: d.after.1)).dropWhile (· != 123)
          = 123 :: (Json.innerText Scalar.text members blanks
            ++ 125 :: (m.behind.1 ++ (trailing Item.text post ++ 125 :: d.after.1))) := by
        have hgap : ∀ c ∈ m.between.1 ++ 58 :: m.after.1, (c != 123) = true := by
          simp only [List.forall_mem_append, List.forall_mem_cons]
          exact ⟨fun c hc => blank_ne rfl (m.between.2 c hc), by decide,
            fun c hc => blank_ne rfl (m.after.2 c hc)⟩
        have hrest : m.rest Item.text ++ (trailing Item.text post ++ 125 :: d.after.1)
            = (m.between.1 ++ 58 :: m.after.1) ++ (123 :: (Json.innerText Scalar.text members blanks
              ++ 125 :: (m.behind.1 ++ (trailing Item.text post ++ 125 :: d.after.1)))) := by
          simp [Member.rest, hvalue, Item.text]
        rw [hrest, List.dropWhile_append_of_pos hgap, List.dropWhile_cons_of_neg (by decide)]
      rw [hopen]
      dsimp only
      rw [sectionBody_innerText hm]
      exact ⟨blanks, rfl⟩

theorem jsonValue_innerText (hname : IsName name) (h : Reached Scalar.strings name members)
    (blanks : Json.Gap)
    : jsonValue (Json.innerText Scalar.text members blanks) name
        = (named name members).map fun m => taken m.value := by
  cases hfound : named name members with
  | none =>
    apply jsonValue_of_cut_none
    have hinner : Search.Avoids (nameKey name) (Json.innerText Scalar.text members blanks) [] := by
      unfold Json.innerText
      split
      . exact avoids_blanks blanks.2
      . exact avoids_texts hname (passes_scalar hname) (h.of_none hfound) (by simp [NoLetterFirst])
    have hall := Search.cut_append_of_avoids hinner
    rw [List.append_nil] at hall
    rw [hall]
    simp [Search.cut, nameKey]
  | some m =>
    rcases h.of_some hfound with ⟨pre, post, hmembers, -, hpre, hraw⟩
    rcases cut_member hname (passes_scalar hname) hpre hraw post [] with ⟨before, hcut⟩
    have hne : members ≠ [] := by simp [hmembers]
    have hend : EndsValue (trailing Scalar.text post ++ []) :=
      endsValue_trailing (by simp [EndsValue])
    rw [← hmembers, List.append_nil] at hcut
    rw [Json.innerText_of_ne_nil hne]
    exact jsonValue_of_cut (s := m.value) rfl hend hcut

theorem jsonValue_document (hname : IsName name) (h : Reached Item.strings name d.members)
    {s : Scalar} (hsome : named name d.members = some m) (hvalue : m.value = .scalar s)
    : jsonValue d.text name = some (taken s) := by
  rcases cut_document_some hname h hsome with ⟨before, post, -, hcut⟩
  have hend : EndsValue (trailing Item.text post ++ 125 :: d.after.1) := by
    apply endsValue_trailing
    intro c hc
    rw [List.head?_cons, Option.mem_some] at hc
    exact .inr hc.symm
  apply jsonValue_of_cut (s := s) _ hend hcut
  rw [hvalue]
  rfl

end Sections
end HikBridge
