import HikBridge.Lib.Numeral

/-!
This module contains the JSON texts of RFC 8259 as the bytes that write them, without a limit on
their depth: what strings, numbers and values are written as, and how a string decodes.
-/

namespace Json

abbrev Text := List UInt8

def IsUtf8 (text : Text) : Prop := ∃ chars : List Char, text = chars.flatMap String.utf8EncodeChar

-- Space, tab, line feed and carriage return.
def isBlank (c : UInt8) : Bool := c == 32 || c == 9 || c == 10 || c == 13

def Blanks (text : Text) : Prop := ∀ c ∈ text, isBlank c = true

section Strings

/--
What one piece between the quotes stands for: a byte, or the code unit of a `\u` escape.
-/
inductive Piece where
  | byte (c : UInt8)
  | unit (u : Nat)
  deriving DecidableEq, Repr

def simpleEscape (c : UInt8) : Option UInt8 :=
  if c = 34 ∨ c = 92 ∨ c = 47 then some c
  else if c = 98 then some 8
  else if c = 102 then some 12
  else if c = 110 then some 10
  else if c = 114 then some 13
  else if c = 116 then some 9
  else none

inductive Spells : List Piece → Text → Prop where
  | nil : Spells [] []
  | plain {c pieces text} (hcontrol : 32 ≤ c) (hquote : c ≠ 34) (hescape : c ≠ 92)
      (h : Spells pieces text) : Spells (.byte c :: pieces) (c :: text)
  | escape {c b pieces text} (hc : simpleEscape c = some b) (h : Spells pieces text)
      : Spells (.byte b :: pieces) (92 :: c :: text)
  | unicode {digits u pieces text} (hlength : digits.length = 4)
      (hu : Numeral.value 16 0 digits = some u) (h : Spells pieces text)
      : Spells (.unit u :: pieces) (92 :: 117 :: (digits ++ text))

/--
The encoding of a code point. A surrogate that is not one of a pair is encoded on its own.
-/
def encode (n : Nat) : Text :=
  if n < 0x80 then [.ofNat n]
  else if n < 0x800 then [.ofNat (0xc0 + n / 0x40), .ofNat (0x80 + n % 0x40)]
  else if n < 0x10000 then
    [.ofNat (0xe0 + n / 0x1000), .ofNat (0x80 + n / 0x40 % 0x40), .ofNat (0x80 + n % 0x40)]
  else
    [.ofNat (0xf0 + n / 0x40000), .ofNat (0x80 + n / 0x1000 % 0x40),
      .ofNat (0x80 + n / 0x40 % 0x40), .ofNat (0x80 + n % 0x40)]

def isHigh (u : Nat) : Bool := 0xd800 ≤ u && u < 0xdc00

def isLow (u : Nat) : Bool := 0xdc00 ≤ u && u < 0xe000

def decode : List Piece → Text
  | [] => []
  | .byte c :: pieces => c :: decode pieces
  | .unit u :: .unit v :: pieces =>
    if isHigh u && isLow v then
      encode (0x10000 + (u - 0xd800) * 0x400 + (v - 0xdc00)) ++ decode pieces
    else
      encode u ++ decode (.unit v :: pieces)
  | .unit u :: pieces => encode u ++ decode pieces

def IsString (value raw : Text) : Prop := ∃ pieces, Spells pieces raw ∧ decode pieces = value

end Strings

section Numbers

def Digits (text : Text) : Prop := text ≠ [] ∧ ∀ c ∈ text, Numeral.isDecimal c = true

def IsInt (text : Text) : Prop := Digits text ∧ (text.head? = some 48 → text = [48])

/--
`[ minus ] int [ frac ] [ exp ]`
-/
inductive IsNumber : Text → Prop where
  | mk {minus int frac exp} (hminus : minus = [] ∨ minus = [45]) (hint : IsInt int)
      (hfrac : frac = [] ∨ ∃ digits, frac = 46 :: digits ∧ Digits digits)
      (hexp : exp = [] ∨ ∃ e sign digits, exp = e :: (sign ++ digits) ∧ (e = 69 ∨ e = 101)
        ∧ (sign = [] ∨ sign = [43] ∨ sign = [45]) ∧ Digits digits)
      : IsNumber (minus ++ int ++ frac ++ exp)

end Numbers

inductive Value where
  | null
  | bool (b : Bool)
  | number (text : Text)
  | string (value : Text)
  | array (items : List Value)
  | object (members : List (Text × Value))

inductive WritesName : Text → Text → Prop where
  | mk {name raw before between after} (hbefore : Blanks before) (hname : IsString name raw)
      (hbetween : Blanks between) (hafter : Blanks after)
      : WritesName name (before ++ 34 :: (raw ++ 34 :: (between ++ 58 :: after)))

mutual

inductive Writes : Value → Text → Prop where
  | null : Writes .null [110, 117, 108, 108]
  | true : Writes (.bool true) [116, 114, 117, 101]
  | false : Writes (.bool false) [102, 97, 108, 115, 101]
  | number {text} (h : IsNumber text) : Writes (.number text) text
  | string {value raw} (h : IsString value raw) : Writes (.string value) (34 :: (raw ++ [34]))
  | emptyArray {blanks} (h : Blanks blanks) : Writes (.array []) (91 :: (blanks ++ [93]))
  | array {items text} (h : WritesItems items text) : Writes (.array items) (91 :: (text ++ [93]))
  | emptyObject {blanks} (h : Blanks blanks) : Writes (.object []) (123 :: (blanks ++ [125]))
  | object {members text} (h : WritesMembers members text)
      : Writes (.object members) (123 :: (text ++ [125]))

inductive WritesItems : List Value → Text → Prop where
  | one {value before text after} (hbefore : Blanks before) (h : Writes value text)
      (hafter : Blanks after) : WritesItems [value] (before ++ text ++ after)
  | more {value items before text after rest} (hbefore : Blanks before) (h : Writes value text)
      (hafter : Blanks after) (hrest : WritesItems items rest)
      : WritesItems (value :: items) (before ++ text ++ after ++ 44 :: rest)

inductive WritesMembers : List (Text × Value) → Text → Prop where
  | one {name value before text after} (hname : WritesName name before) (h : Writes value text)
      (hafter : Blanks after) : WritesMembers [(name, value)] (before ++ text ++ after)
  | more {name value members before text after rest} (hname : WritesName name before)
      (h : Writes value text) (hafter : Blanks after) (hrest : WritesMembers members rest)
      : WritesMembers ((name, value) :: members) (before ++ text ++ after ++ 44 :: rest)

end

def IsText (value : Value) (text : Text) : Prop :=
  IsUtf8 text ∧ ∃ before inner after, text = before ++ inner ++ after ∧ Blanks before
    ∧ Writes value inner ∧ Blanks after

def Value.member? (value : Value) (name : Text) : Option Value :=
  match value with
  | .object members => (members.find? fun member => member.1 == name).map Prod.snd
  | _ => none

section Utf8

variable {text text' : Text}

theorem isUtf8_nil : IsUtf8 [] := ⟨[], rfl⟩

theorem IsUtf8.append (h : IsUtf8 text) (h' : IsUtf8 text') : IsUtf8 (text ++ text') := by
  rcases h with ⟨chars, rfl⟩
  rcases h' with ⟨chars', rfl⟩
  exact ⟨chars ++ chars', by rw [List.flatMap_append]⟩

theorem utf8EncodeChar_ascii {c : UInt8} (h : c < 128)
    : String.utf8EncodeChar (Char.ofNat c.toNat) = [c] := by
  have hc : c.toNat < 128 := h
  have hvalid : c.toNat.isValidChar := .inl (by omega)
  have hval : (Char.ofNat c.toNat).val.toNat = c.toNat := by
    rw [Char.ofNat, dif_pos hvalid]
    rfl
  unfold String.utf8EncodeChar
  simp only [hval]
  rw [if_pos (by omega), UInt8.ofNat_toNat]

theorem isUtf8_of_ascii (h : ∀ c ∈ text, c < 128) : IsUtf8 text := by
  induction text with
  | nil => exact isUtf8_nil
  | cons c text ih =>
    have hsingle : IsUtf8 [c] :=
      ⟨[Char.ofNat c.toNat], by simp [utf8EncodeChar_ascii (h c List.mem_cons_self)]⟩
    exact hsingle.append (ih fun d hd => h d (List.mem_cons_of_mem c hd))

theorem utf8EncodeChar_cases (c : Char)
    : (∃ b : UInt8, b < 128 ∧ String.utf8EncodeChar c = [b])
      ∨ ∀ b ∈ String.utf8EncodeChar c, 128 ≤ b := by
  have hbyte : ∀ n : Nat, 128 ≤ n → n < 256 → 128 ≤ UInt8.ofNat n := by
    intro n hn hn'
    rw [UInt8.le_iff_toNat_le, UInt8.toNat_ofNat', Nat.mod_eq_of_lt hn']
    exact hn
  unfold String.utf8EncodeChar
  dsimp only
  split
  . next hle =>
    left
    refine ⟨_, ?_, rfl⟩
    rw [UInt8.lt_iff_toNat_lt, UInt8.toNat_ofNat']
    exact Nat.lt_of_le_of_lt (Nat.mod_le _ _) (Nat.lt_succ_of_le hle)
  . right
    split
    . intro b hb
      simp only [List.mem_cons, List.not_mem_nil, or_false] at hb
      rcases hb with rfl | rfl
      all_goals
        apply hbyte
        all_goals omega
    . split
      . intro b hb
        simp only [List.mem_cons, List.not_mem_nil, or_false] at hb
        rcases hb with rfl | rfl | rfl
        all_goals
          apply hbyte
          all_goals omega
      . intro b hb
        simp only [List.mem_cons, List.not_mem_nil, or_false] at hb
        rcases hb with rfl | rfl | rfl | rfl
        all_goals
          apply hbyte
          all_goals omega

end Utf8

section Plain

variable {text : Text}

def IsPlain (c : UInt8) : Prop := 32 ≤ c ∧ c ≠ 34 ∧ c ≠ 92

theorem spells_plain (h : ∀ c ∈ text, IsPlain c) : Spells (text.map .byte) text := by
  induction text with
  | nil => exact .nil
  | cons c text ih =>
    have hc := h c List.mem_cons_self
    exact .plain hc.1 hc.2.1 hc.2.2 (ih fun d hd => h d (List.mem_cons_of_mem c hd))

theorem decode_bytes (text : Text) : decode (text.map .byte) = text := by
  induction text with
  | nil => rfl
  | cons c text ih => rw [List.map_cons, decode, ih]

theorem isString_plain (h : ∀ c ∈ text, IsPlain c) : IsString text text :=
  ⟨_, spells_plain h, decode_bytes text⟩

end Plain

section Escapes

variable {pieces : List Piece} {raw : Text}

theorem spells_of_no_backslash (h : Spells pieces raw) (hraw : 92 ∉ raw)
    : 34 ∉ raw ∧ decode pieces = raw := by
  induction h with
  | nil => exact ⟨List.not_mem_nil, rfl⟩
  | plain _ hquote _ _ ih =>
    rw [List.mem_cons, not_or] at hraw
    rcases ih hraw.2 with ⟨htext, hdecode⟩
    exact ⟨by simp [Ne.symm hquote, htext], by rw [decode, hdecode]⟩
  | escape => simp at hraw
  | unicode => simp at hraw

theorem mem_decode {c : UInt8} (h : Piece.byte c ∈ pieces) : c ∈ decode pieces := by
  fun_induction decode pieces with
  | case1 => contradiction
  | case2 b pieces ih =>
    rcases List.mem_cons.mp h with heq | h
    . cases heq
      exact List.mem_cons_self
    . exact List.mem_cons_of_mem b (ih h)
  | case3 u v pieces hpair ih =>
    have hpieces : Piece.byte c ∈ pieces := by simpa using h
    exact List.mem_append_right _ (ih hpieces)
  | case4 u v pieces hpair ih =>
    have hpieces : Piece.byte c ∈ Piece.unit v :: pieces := by simpa using h
    exact List.mem_append_right _ (ih hpieces)
  | case5 u pieces hpieces ih =>
    have hmem : Piece.byte c ∈ pieces := by simpa using h
    exact List.mem_append_right _ (ih hmem)

theorem quote_mem_decode (h : Spells pieces raw) (hraw : 34 ∈ raw) : 34 ∈ decode pieces := by
  apply mem_decode
  induction h with
  | nil => contradiction
  | plain _ hquote _ _ ih =>
    rcases List.mem_cons.mp hraw with heq | hraw
    . exact absurd heq.symm hquote
    . exact List.mem_cons_of_mem _ (ih hraw)
  | @escape c b pieces text hc _ ih =>
    by_cases hquote : c = 34
    . subst hquote
      have hb : b = 34 := by simpa [simpleEscape] using hc.symm
      rw [hb]
      exact List.mem_cons_self
    . have htext : 34 ∈ text := by simpa [Ne.symm hquote] using hraw
      exact List.mem_cons_of_mem _ (ih htext)
  | @unicode digits u pieces text _ hu _ ih =>
    have hdigits : (34 : UInt8) ∉ digits := by
      intro hmem
      have hsome := Numeral.digitVal_isSome_of_value hu 34 hmem
      contradiction
    have htext : 34 ∈ text := by simpa [hdigits] using hraw
    exact List.mem_cons_of_mem _ (ih htext)

def Piece.size : Piece → Nat
  | byte _ => 1
  | unit _ => 4

theorem length_encode_le (n : Nat) : (encode n).length ≤ 4 := by
  unfold encode
  split
  . simp
  . split
    . simp
    . split
      . simp
      . simp

theorem length_decode_le (pieces : List Piece)
    : (decode pieces).length ≤ (pieces.map Piece.size).sum := by
  fun_induction decode pieces with
  | case1 => simp
  | case2 b pieces ih =>
    simp only [List.length_cons, List.map_cons, List.sum_cons, Piece.size]
    omega
  | case3 u v pieces hpair ih =>
    have hpair := length_encode_le (0x10000 + (u - 0xd800) * 0x400 + (v - 0xdc00))
    simp only [List.length_append, List.map_cons, List.sum_cons, Piece.size]
    omega
  | case4 u v pieces hpair ih =>
    have hu := length_encode_le u
    rw [List.length_append, List.map_cons, List.sum_cons, Piece.size]
    omega
  | case5 u pieces hpieces ih =>
    have hu := length_encode_le u
    rw [List.length_append, List.map_cons, List.sum_cons, Piece.size]
    omega

theorem size_le (h : Spells pieces raw) : (pieces.map Piece.size).sum ≤ raw.length := by
  induction h with
  | nil => simp
  | plain _ _ _ _ ih =>
    simp only [List.map_cons, List.sum_cons, Piece.size, List.length_cons]
    omega
  | escape _ _ ih =>
    simp only [List.map_cons, List.sum_cons, Piece.size, List.length_cons]
    omega
  | unicode hlength _ _ ih =>
    simp only [List.map_cons, List.sum_cons, Piece.size, List.length_cons, List.length_append]
    omega

theorem length_decode_lt (h : Spells pieces raw) (hraw : 92 ∈ raw)
    : (decode pieces).length < raw.length := by
  suffices hsize : (pieces.map Piece.size).sum < raw.length from
    Nat.lt_of_le_of_lt (length_decode_le pieces) hsize
  induction h with
  | nil => contradiction
  | plain _ _ hescape _ ih =>
    rcases List.mem_cons.mp hraw with heq | hraw
    . exact absurd heq.symm hescape
    . have htext := ih hraw
      simp only [List.map_cons, List.sum_cons, Piece.size, List.length_cons]
      omega
  | escape _ h _ =>
    have htext := size_le h
    simp only [List.map_cons, List.sum_cons, Piece.size, List.length_cons]
    omega
  | unicode hlength _ h _ =>
    have htext := size_le h
    simp only [List.map_cons, List.sum_cons, Piece.size, List.length_cons, List.length_append]
    omega

end Escapes

section Blanks

variable {text rest : Text} {c : UInt8}

theorem blanks_nil : Blanks [] := fun _ h => absurd h List.not_mem_nil

theorem Blanks.eq_nil (h : Blanks text) (hc : isBlank c = false) {more : Text}
    (heq : text ++ rest = c :: more) : text = [] := by
  cases text with
  | nil => rfl
  | cons d text =>
    rw [List.cons_append, List.cons.injEq] at heq
    have hd := h d List.mem_cons_self
    rw [heq.1, hc] at hd
    contradiction

end Blanks

section Reading

variable {value : Value} {text rest more : Text}

theorem isNumber_of_isInt (h : IsInt text) : IsNumber text := by
  have hnumber := IsNumber.mk (.inl rfl) h (.inl rfl) (.inl rfl)
  simpa using hnumber

theorem IsNumber.exists_head (h : IsNumber text)
    : ∃ c tail, text = c :: tail ∧ (c = 45 ∨ Numeral.isDecimal c = true) := by
  cases h with
  | @mk minus int frac exp hminus hint _ _ =>
    rcases hminus with rfl | rfl
    . cases int with
      | nil => exact absurd rfl hint.1.1
      | cons c int => exact ⟨c, int ++ frac ++ exp, rfl, .inr (hint.1.2 c List.mem_cons_self)⟩
    . exact ⟨45, int ++ frac ++ exp, rfl, .inl rfl⟩

theorem Writes.exists_string (h : Writes value text) (heq : text ++ rest = 34 :: more)
    : ∃ string raw, value = .string string ∧ IsString string raw ∧ text = 34 :: (raw ++ [34]) := by
  cases h with
  | @string string raw hraw => exact ⟨string, raw, rfl, hraw, rfl⟩
  | number hnumber =>
    rcases hnumber.exists_head with ⟨c, tail, rfl, hc⟩
    simp only [List.cons_append, List.cons.injEq] at heq
    rcases hc with hc | hc
    . rw [heq.1] at hc
      contradiction
    . rw [heq.1] at hc
      contradiction
  | _ => simp at heq

theorem IsText.exists_members {c : UInt8} {tail : Text} (hc : isBlank c = false)
    (htext : text = c :: tail) (h : IsText value (123 :: (text ++ [125])))
    : ∃ members, value = .object members ∧ WritesMembers members text := by
  rcases h with ⟨-, before, inner, after, heq, hbefore, hinner, hafter⟩
  have hnil : before = [] := by
    apply hbefore.eq_nil (c := 123) rfl
    rw [← List.append_assoc, ← heq]
  subst hnil
  have hend : after = [] := by
    rcases List.eq_nil_or_concat after with rfl | ⟨blanks, last, rfl⟩
    . rfl
    . rw [List.concat_eq_append, ← List.cons_append, List.nil_append, ← List.append_assoc] at heq
      have hlast := (List.append_inj' heq rfl).2
      have hblank := hafter last (by simp)
      rw [← List.cons.inj hlast |>.1] at hblank
      contradiction
  subst hend
  rw [List.append_nil, List.nil_append] at heq
  subst heq
  generalize hgoal : 123 :: (text ++ [125]) = whole at hinner
  cases hinner with
  | number hnumber =>
    rcases hnumber.exists_head with ⟨d, more, rfl, hd⟩
    rw [← (List.cons.inj hgoal).1] at hd
    rcases hd with hd | hd
    . contradiction
    . contradiction
  | emptyObject hblanks =>
    have hinner := (List.append_inj' (List.cons.inj hgoal).2 rfl).1
    rw [← hinner, htext] at hblanks
    have hblank := hblanks c List.mem_cons_self
    rw [hc] at hblank
    contradiction
  | object hmembers =>
    have hinner := (List.append_inj' (List.cons.inj hgoal).2 rfl).1
    rw [← hinner] at hmembers
    exact ⟨_, rfl, hmembers⟩
  | _ => simp at hgoal

theorem isText_object {members : List (Text × Value)} (hutf8 : IsUtf8 (123 :: (text ++ [125])))
    (h : WritesMembers members text) : IsText (.object members) (123 :: (text ++ [125])) :=
  ⟨hutf8, [], _, [], by simp, blanks_nil, .object h, blanks_nil⟩

end Reading

end Json
