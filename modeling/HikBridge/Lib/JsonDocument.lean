import HikBridge.Lib.Json

/-!
This module contains the JSON objects whose members are scalars or objects of scalars as syntax trees
that keep every byte: their texts, their values, and that every JSON text of such a value is the text
of a tree.
-/

namespace Json

abbrev Gap := { text : Text // Blanks text }

structure Literal where
  raw : Text
  pieces : List Piece
  spells : Spells pieces raw

namespace Literal

def text (s : Literal) : Text := 34 :: (s.raw ++ [34])

def value (s : Literal) : Text := decode s.pieces

def plain (text : Text) (h : ∀ c ∈ text, IsPlain c) : Literal := ⟨text, text.map .byte, spells_plain h⟩

end Literal

inductive Bare : Value → Text → Prop where
  | null : Bare .null [110, 117, 108, 108]
  | true : Bare (.bool true) [116, 114, 117, 101]
  | false : Bare (.bool false) [102, 97, 108, 115, 101]
  | number {text} (h : IsNumber text) : Bare (.number text) text

def Value.read? : Value → Option Text
  | .null => some [110, 117, 108, 108]
  | .bool true => some [116, 114, 117, 101]
  | .bool false => some [102, 97, 108, 115, 101]
  | .number text => some text
  | .string value => some value
  | .array _ | .object _ => none

inductive Scalar where
  | string (s : Literal)
  | bare (value : Value) (text : Text) (h : Bare value text)

namespace Scalar

def text : Scalar → Text
  | string s => s.text
  | bare _ text _ => text

def value : Scalar → Value
  | string s => .string s.value
  | bare value _ _ => value

def read : Scalar → Text
  | string s => s.value
  | bare _ text _ => text

def strings : Scalar → List Text
  | string s => [s.raw]
  | bare _ _ _ => []

theorem read?_value (s : Scalar) : s.value.read? = some s.read := by
  cases s with
  | string s => rfl
  | bare value text h =>
    cases h with
    | _ => rfl

end Scalar

structure Member (α : Type) where
  before : Gap
  name : Literal
  between : Gap
  after : Gap
  value : α
  behind : Gap

namespace Member

variable {α : Type} (textOf : α → Text)

def rest (m : Member α) : Text :=
  m.between.1 ++ 58 :: (m.after.1 ++ (textOf m.value ++ m.behind.1))

def text (m : Member α) : Text := m.before.1 ++ (m.name.text ++ m.rest textOf)

def texts : List (Member α) → Text
  | [] => []
  | [m] => m.text textOf
  | m :: members => m.text textOf ++ 44 :: texts members

end Member

inductive Item where
  | scalar (s : Scalar)
  | object (members : List (Member Scalar)) (blanks : Gap)

def innerText {α : Type} (textOf : α → Text) (members : List (Member α)) (blanks : Gap) : Text :=
  match members with
  | [] => blanks.1
  | members => Member.texts textOf members

namespace Item

def text : Item → Text
  | scalar s => s.text
  | object members blanks => 123 :: (innerText Scalar.text members blanks ++ [125])

def value : Item → Value
  | scalar s => s.value
  | object members _ => .object (members.map fun m => (m.name.value, m.value.value))

def strings : Item → List Text
  | scalar s => s.strings
  | object members _ => members.flatMap fun m => m.name.raw :: m.value.strings

end Item

structure Document where
  before : Gap
  members : List (Member Item)
  blanks : Gap
  after : Gap

namespace Document

def text (d : Document) : Text :=
  d.before.1 ++ 123 :: (innerText Item.text d.members d.blanks ++ 125 :: d.after.1)

def value (d : Document) : Value :=
  .object (d.members.map fun m => (m.name.value, m.value.value))

end Document

def IsScalar : Value → Prop
  | .array _ | .object _ => False
  | _ => True

def IsFlat (value : Value) : Prop :=
  ∃ members, value = .object members
    ∧ ∀ member ∈ members, IsScalar member.2
      ∨ ∃ inner, member.2 = .object inner ∧ ∀ m ∈ inner, IsScalar m.2

section Completeness

variable {value : Value} {text : Text}

theorem exists_scalar (h : Writes value text) (hscalar : IsScalar value)
    : ∃ s : Scalar, s.text = text ∧ s.value = value := by
  cases h with
  | null => exact ⟨.bare _ _ .null, rfl, rfl⟩
  | true => exact ⟨.bare _ _ .true, rfl, rfl⟩
  | false => exact ⟨.bare _ _ .false, rfl, rfl⟩
  | number hnumber => exact ⟨.bare _ _ (.number hnumber), rfl, rfl⟩
  | string hstring =>
    rcases hstring with ⟨pieces, hspells, rfl⟩
    exact ⟨.string ⟨_, pieces, hspells⟩, rfl, rfl⟩
  | _ => exact absurd hscalar id

theorem exists_members {α : Type} {textOf : α → Text} {valueOf : α → Value}
    {members : List (Text × Value)} (h : WritesMembers members text)
    (hvalues : ∀ member ∈ members, ∀ text, Writes member.2 text
      → ∃ a, textOf a = text ∧ valueOf a = member.2)
    : ∃ trees : List (Member α), trees ≠ [] ∧ Member.texts textOf trees = text
        ∧ trees.map (fun m => (m.name.value, valueOf m.value)) = members := by
  induction members generalizing text with
  | nil => cases h
  | cons member members ih =>
    rcases member with ⟨name, value⟩
    rcases List.forall_mem_cons.mp hvalues with ⟨hvalue, hmembers⟩
    cases h with
    | @one _ _ before inner behind hname hinner hbehind =>
      rcases hname with @⟨raw, gap, between, after, hgap, ⟨pieces, hspells, rfl⟩, hbetween, hafter⟩
      rcases hvalue inner hinner with ⟨a, rfl, hvalueOf⟩
      refine ⟨[⟨⟨gap, hgap⟩, ⟨raw, pieces, hspells⟩, ⟨between, hbetween⟩, ⟨after, hafter⟩, a,
        ⟨behind, hbehind⟩⟩], by simp, ?_, ?_⟩
      . simp [Member.texts, Member.text, Member.rest, Literal.text]
      . simp [Literal.value, hvalueOf]
    | @more _ _ _ before inner behind rest hname hinner hbehind hrest =>
      rcases hname with @⟨raw, gap, between, after, hgap, ⟨pieces, hspells, rfl⟩, hbetween, hafter⟩
      rcases hvalue inner hinner with ⟨a, rfl, hvalueOf⟩
      rcases ih hrest hmembers with ⟨trees, hne, rfl, rfl⟩
      refine ⟨⟨⟨gap, hgap⟩, ⟨raw, pieces, hspells⟩, ⟨between, hbetween⟩, ⟨after, hafter⟩, a,
        ⟨behind, hbehind⟩⟩ :: trees, by simp, ?_, ?_⟩
      . cases trees with
        | nil => contradiction
        | cons tree trees => simp [Member.texts, Member.text, Member.rest, Literal.text]
      . simp [Literal.value, hvalueOf]

theorem innerText_of_ne_nil {α : Type} {textOf : α → Text} {members : List (Member α)}
    (h : members ≠ []) (blanks : Gap)
    : innerText textOf members blanks = Member.texts textOf members := by
  cases members with
  | nil => contradiction
  | cons m members => rfl

theorem exists_item (h : Writes value text)
    (hflat : IsScalar value ∨ ∃ inner, value = .object inner ∧ ∀ m ∈ inner, IsScalar m.2)
    : ∃ item : Item, item.text = text ∧ item.value = value := by
  rcases hflat with hscalar | ⟨inner, rfl, hinner⟩
  . rcases exists_scalar h hscalar with ⟨s, rfl, rfl⟩
    exact ⟨.scalar s, rfl, rfl⟩
  . cases h with
    | @emptyObject blanks hblanks => exact ⟨.object [] ⟨blanks, hblanks⟩, rfl, rfl⟩
    | object hmembers =>
      rcases exists_members hmembers (fun m hm text htext => exists_scalar htext (hinner m hm)) with
        ⟨trees, hne, rfl, rfl⟩
      exact ⟨.object trees ⟨[], blanks_nil⟩, by rw [Item.text, innerText_of_ne_nil hne], rfl⟩

theorem exists_document (h : IsText value text) (hflat : IsFlat value)
    : ∃ d : Document, d.text = text ∧ d.value = value := by
  rcases h with ⟨-, before, inner, after, rfl, hbefore, hinner, hafter⟩
  rcases hflat with ⟨members, rfl, hmembers⟩
  cases hinner with
  | @emptyObject blanks hblanks =>
    refine ⟨⟨⟨before, hbefore⟩, [], ⟨blanks, hblanks⟩, ⟨after, hafter⟩⟩, ?_, rfl⟩
    simp [Document.text, innerText]
  | @object _ text htext =>
    rcases exists_members htext (fun m hm text htext => exists_item htext (hmembers m hm)) with
      ⟨trees, hne, rfl, rfl⟩
    refine ⟨⟨⟨before, hbefore⟩, trees, ⟨[], blanks_nil⟩, ⟨after, hafter⟩⟩, ?_, rfl⟩
    simp [Document.text, innerText_of_ne_nil hne]

end Completeness

section Soundness

theorem Bare.writes {value : Value} {text : Text} (h : Bare value text) : Writes value text := by
  cases h with
  | null => exact .null
  | true => exact .true
  | false => exact .false
  | number hnumber => exact .number hnumber

theorem Scalar.writes (s : Scalar) : Writes s.value s.text := by
  cases s with
  | string s => exact .string ⟨s.pieces, s.spells, rfl⟩
  | bare value text h => exact h.writes

variable {α : Type} {textOf : α → Text} {valueOf : α → Value}

theorem Member.writesName (m : Member α)
    : WritesName m.name.value (m.before.1 ++ (m.name.text ++ (m.between.1 ++ 58 :: m.after.1))) := by
  have hname := WritesName.mk m.before.2 ⟨m.name.pieces, m.name.spells, rfl⟩ m.between.2 m.after.2
  simpa [Literal.text, Literal.value] using hname

theorem writesMembers_texts (hwrites : ∀ a, Writes (valueOf a) (textOf a)) {members : List (Member α)}
    (hne : members ≠ [])
    : WritesMembers (members.map fun m => (m.name.value, valueOf m.value))
        (Member.texts textOf members) := by
  induction members with
  | nil => contradiction
  | cons m members ih =>
    cases members with
    | nil =>
      have hone := WritesMembers.one m.writesName (hwrites m.value) m.behind.2
      simpa [Member.texts, Member.text, Member.rest] using hone
    | cons m' members =>
      have hmore := WritesMembers.more m.writesName (hwrites m.value) m.behind.2 (ih (by simp))
      simpa [Member.texts, Member.text, Member.rest] using hmore

theorem writes_object (hwrites : ∀ a, Writes (valueOf a) (textOf a)) (members : List (Member α))
    (blanks : Gap)
    : Writes (.object (members.map fun m => (m.name.value, valueOf m.value)))
        (123 :: (innerText textOf members blanks ++ [125])) := by
  cases members with
  | nil => exact .emptyObject blanks.2
  | cons m members => exact .object (writesMembers_texts hwrites (by simp))

theorem Item.writes (item : Item) : Writes item.value item.text := by
  cases item with
  | scalar s => exact s.writes
  | object members blanks => exact writes_object Scalar.writes members blanks

theorem isText_document {d : Document} (h : IsUtf8 d.text) : IsText d.value d.text :=
  ⟨h, d.before.1, _, d.after.1, by simp [Document.text], d.before.2,
    writes_object Item.writes d.members d.blanks, d.after.2⟩

end Soundness

end Json
