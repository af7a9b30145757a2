import HikBridge.Http.Answers
import HikBridge.Lib.Json

/-!
This module relates the bodies that the bridge answers with to the JSON texts of RFC 8259: when a body
is such a text, and what its strings decode to.
-/

namespace HikBridge

open Json (IsUtf8 IsPlain IsString Spells Blanks Writes WritesName WritesMembers IsText Piece)

section Escape

variable {value raw rest rest' : Bytes} {pieces : List Piece}

/--
The bytes for which the JSON grammar has escapes only and `json_escape` has none do not occur.
-/
def NoControl (value : Bytes) : Prop := ∀ c ∈ value, 32 ≤ c

instance (value : Bytes) : Decidable (NoControl value) :=
  List.decidableBAll _ value

theorem jsonEscape_cons (c : UInt8) (value : Bytes)
    : jsonEscape (c :: value)
        =
      if c = 34 ∨ c = 92 then 92 :: c :: jsonEscape value else c :: jsonEscape value := by
  unfold jsonEscape
  rw [List.flatMap_cons]
  split
  . rfl
  . rfl

theorem spells_jsonEscape (h : NoControl value) : Spells (value.map .byte) (jsonEscape value) := by
  induction value with
  | nil => exact .nil
  | cons c value ih =>
    have hvalue := ih fun d hd => h d (List.mem_cons_of_mem c hd)
    rw [jsonEscape_cons, List.map_cons]
    split
    . next hc =>
      apply Spells.escape _ hvalue
      rcases hc with rfl | rfl
      . rfl
      . rfl
    . next hc =>
      rw [not_or] at hc
      exact .plain (h c List.mem_cons_self) hc.1 hc.2 hvalue

theorem isString_jsonEscape (h : NoControl value) : IsString value (jsonEscape value) :=
  ⟨_, spells_jsonEscape h, Json.decode_bytes value⟩

theorem spells_read (h : Spells pieces raw)
    (heq : raw ++ 34 :: rest = jsonEscape value ++ 34 :: rest')
    : NoControl value ∧ pieces = value.map .byte ∧ rest = rest' := by
  induction value generalizing pieces raw with
  | nil =>
    cases h with
    | nil => exact ⟨fun c hc => absurd hc List.not_mem_nil, rfl, by simpa [jsonEscape] using heq⟩
    | plain _ hquote => simp [jsonEscape, hquote] at heq
    | escape => simp [jsonEscape] at heq
    | unicode => simp [jsonEscape] at heq
  | cons c value ih =>
    rw [jsonEscape_cons] at heq
    split at heq
    . next hc =>
      cases h with
      | nil => simp at heq
      | plain _ _ hescape => simp [hescape] at heq
      | @escape c' b pieces text hb htext =>
        simp only [List.cons_append, List.cons.injEq, true_and] at heq
        rcases heq with ⟨rfl, heq⟩
        rcases ih htext heq with ⟨hvalue, rfl, hrest⟩
        have hb' : b = c' := by
          rw [Json.simpleEscape, if_pos (by rcases hc with rfl | rfl <;> simp)] at hb
          exact (Option.some.inj hb).symm
        have hcontrol : 32 ≤ c' := by
          rcases hc with rfl | rfl
          . decide
          . decide
        exact ⟨List.forall_mem_cons.mpr ⟨hcontrol, hvalue⟩, by rw [hb', List.map_cons], hrest⟩
      | unicode =>
        simp only [List.cons_append, List.cons.injEq, true_and] at heq
        rcases hc with rfl | rfl
        . simp at heq
        . simp at heq
    . next hc =>
      rw [not_or] at hc
      cases h with
      | nil => simp [Ne.symm hc.1] at heq
      | plain hcontrol _ _ htext =>
        simp only [List.cons_append, List.cons.injEq] at heq
        rcases heq with ⟨rfl, heq⟩
        rcases ih htext heq with ⟨hvalue, rfl, hrest⟩
        exact ⟨List.forall_mem_cons.mpr ⟨hcontrol, hvalue⟩, by rw [List.map_cons], hrest⟩
      | escape => simp [Ne.symm hc.2] at heq
      | unicode => simp [Ne.symm hc.2] at heq

theorem isString_read {string : Bytes} (h : IsString string raw)
    (heq : raw ++ 34 :: rest = jsonEscape value ++ 34 :: rest')
    : NoControl value ∧ string = value ∧ rest = rest' := by
  rcases h with ⟨pieces, hspells, rfl⟩
  rcases spells_read hspells heq with ⟨hvalue, rfl, hrest⟩
  exact ⟨hvalue, Json.decode_bytes value, hrest⟩

end Escape

section Members

def quoted (value : Bytes) : Bytes := 34 :: (jsonEscape value ++ [34])

def stringMembers : List (Bytes × Bytes) → Bytes → Bytes
  | [], tail => tail
  | [(name, value)], tail => quoted name ++ 58 :: (quoted value ++ tail)
  | (name, value) :: members, tail =>
    quoted name ++ 58 :: (quoted value ++ 44 :: stringMembers members tail)

inductive EndsMembers : List (Bytes × Json.Value) → Bytes → Prop where
  | none : EndsMembers [] []
  | more {others text} (h : WritesMembers others text) : EndsMembers others (44 :: text)

def asJson (members : List (Bytes × Bytes)) : List (Bytes × Json.Value) :=
  members.map fun member => (member.1, .string member.2)

variable {name value tail text : Bytes} {strings : List (Bytes × Bytes)}
  {members others : List (Bytes × Json.Value)}

theorem writesName_quoted (h : NoControl name) : WritesName name (quoted name ++ [58]) := by
  have hname := WritesName.mk Json.blanks_nil (isString_jsonEscape h) Json.blanks_nil
    Json.blanks_nil
  simpa [quoted] using hname

theorem writes_quoted (h : NoControl value) : Writes (.string value) (quoted value) :=
  .string (isString_jsonEscape h)

theorem writesMembers_one {json : Json.Value} (hname : NoControl name) (h : Writes json text)
    : WritesMembers [(name, json)] (quoted name ++ 58 :: text) := by
  have hone := WritesMembers.one (writesName_quoted hname) h Json.blanks_nil
  simpa using hone

theorem writesMembers_more {json : Json.Value} {rest : Bytes} (hname : NoControl name)
    (h : Writes json text) (hrest : WritesMembers members rest)
    : WritesMembers ((name, json) :: members) (quoted name ++ 58 :: (text ++ 44 :: rest)) := by
  have hmore := WritesMembers.more (writesName_quoted hname) h Json.blanks_nil hrest
  simpa using hmore

theorem writes_stringMembers (hne : strings ≠ [])
    (h : ∀ member ∈ strings, NoControl member.1 ∧ NoControl member.2)
    (hend : EndsMembers others tail)
    : WritesMembers (asJson strings ++ others) (stringMembers strings tail) := by
  induction strings with
  | nil => contradiction
  | cons member strings ih =>
    rcases member with ⟨name, value⟩
    rcases List.forall_mem_cons.mp h with ⟨hmember, hstrings⟩
    cases strings with
    | nil =>
      cases hend with
      | none =>
        have hone := writesMembers_one hmember.1 (writes_quoted hmember.2)
        simpa [stringMembers, asJson] using hone
      | more hothers =>
        exact writesMembers_more hmember.1 (writes_quoted hmember.2) hothers
    | cons next strings =>
      exact writesMembers_more hmember.1 (writes_quoted hmember.2) (ih (by simp) hstrings)

theorem writesName_read {string before rest rest' : Bytes} (h : WritesName string before)
    (heq : before ++ rest = quoted name ++ 58 :: 34 :: rest')
    : NoControl name ∧ string = name ∧ rest = 34 :: rest' := by
  cases h with
  | @mk raw b1 b2 b3 hb1 hraw hb2 hb3 =>
    have hquote : b1 = [] := hb1.eq_nil rfl (by simpa [quoted] using heq)
    subst hquote
    have hstring : raw ++ 34 :: (b2 ++ 58 :: (b3 ++ rest)) = jsonEscape name ++ 34 :: 58 :: 34 :: rest' := by
      simpa [quoted] using heq
    rcases isString_read hraw hstring with ⟨hname, rfl, hrest⟩
    have hcolon : b2 = [] := hb2.eq_nil rfl hrest
    subst hcolon
    have hvalue : b3 ++ rest = 34 :: rest' := by simpa using hrest
    have hnil : b3 = [] := hb3.eq_nil rfl hvalue
    subst hnil
    exact ⟨hname, rfl, hvalue⟩

theorem writes_read {json : Json.Value} {rest rest' : Bytes} (h : Writes json text)
    (heq : text ++ rest = quoted value ++ rest')
    : NoControl value ∧ json = .string value ∧ rest = rest' := by
  rcases h.exists_string heq with ⟨string, raw, rfl, hraw, rfl⟩
  have hstring : raw ++ 34 :: rest = jsonEscape value ++ 34 :: rest' := by simpa [quoted] using heq
  rcases isString_read hraw hstring with ⟨hvalue, rfl, hrest⟩
  exact ⟨hvalue, rfl, hrest⟩

theorem writesMembers_read {rest : Bytes} (h : WritesMembers members text)
    (heq : text = quoted name ++ 58 :: (quoted value ++ rest))
    (hrest : ∀ c more, rest = c :: more → c = 44)
    : NoControl name ∧ NoControl value ∧ ∃ others, members = (name, .string value) :: others
        ∧ EndsMembers others rest := by
  cases h with
  | @one string json before inner after hname hvalue hafter =>
    rw [List.append_assoc] at heq
    rcases writesName_read hname heq with ⟨hn, rfl, hinner⟩
    rcases writes_read hvalue (by simpa [quoted] using hinner) with ⟨hv, rfl, rfl⟩
    refine ⟨hn, hv, [], rfl, ?_⟩
    cases after with
    | nil => exact .none
    | cons c after =>
      have hc := hafter c List.mem_cons_self
      rw [hrest c after rfl] at hc
      contradiction
  | @more string json members before inner after more hname hvalue hafter hmore =>
    rw [List.append_assoc, List.append_assoc] at heq
    rcases writesName_read hname heq with ⟨hn, rfl, hinner⟩
    rcases writes_read hvalue (by simpa [quoted] using hinner) with ⟨hv, rfl, rfl⟩
    refine ⟨hn, hv, members, rfl, ?_⟩
    cases after with
    | nil => exact .more hmore
    | cons c after =>
      have hc := hafter c List.mem_cons_self
      rw [hrest c _ rfl] at hc
      contradiction

theorem stringMembers_read (hne : strings ≠ []) (h : WritesMembers members (stringMembers strings tail))
    (htail : ∀ c more, tail = c :: more → c = 44)
    : (∀ member ∈ strings, NoControl member.1 ∧ NoControl member.2)
        ∧ ∃ others, members = asJson strings ++ others := by
  induction strings generalizing members with
  | nil => contradiction
  | cons member strings ih =>
    rcases member with ⟨name, value⟩
    cases strings with
    | nil =>
      rcases writesMembers_read h rfl htail with ⟨hname, hvalue, others, rfl, -⟩
      exact ⟨by simp [hname, hvalue], others, rfl⟩
    | cons next strings =>
      rcases writesMembers_read h rfl (by simp) with ⟨hname, hvalue, others, rfl, hend⟩
      cases hend with
      | more hothers =>
        rcases ih (by simp) hothers with ⟨hstrings, others, rfl⟩
        exact ⟨List.forall_mem_cons.mpr ⟨⟨hname, hvalue⟩, hstrings⟩, others, rfl⟩

end Members

section Bodies

variable {body tail : Bytes} {strings : List (Bytes × Bytes)} {others : List (Bytes × Json.Value)}

/--
The body is a JSON text, and from every value that it is the text of the strings are read back.
-/
def AnswersJson (body : Bytes) (strings : List (Bytes × Bytes)) : Prop :=
  (∃ json, IsText json body)
    ∧ ∀ json, IsText json body → ∀ member ∈ strings, json.member? member.1 = some (.string member.2)

theorem member_asJson (hnodup : (strings.map Prod.fst).Nodup)
    : ∀ member ∈ strings,
        (Json.Value.object (asJson strings ++ others)).member? member.1 = some (.string member.2) := by
  induction strings with
  | nil => simp
  | cons head strings ih =>
    rw [List.map_cons, List.nodup_cons] at hnodup
    intro member hmember
    rcases List.mem_cons.mp hmember with rfl | hmember
    . simp [Json.Value.member?, asJson]
    . have hne : head.1 ≠ member.1 := by
        intro heq
        exact hnodup.1 (heq ▸ List.mem_map_of_mem hmember)
      have hrest := ih hnodup.2 member hmember
      simpa [Json.Value.member?, asJson, hne] using hrest

structure Names (strings : List (Bytes × Bytes)) : Prop where
  ne_nil : strings ≠ []
  noControl : ∀ member ∈ strings, NoControl member.1
  nodup : (strings.map Prod.fst).Nodup

theorem exists_cons_stringMembers (h : strings ≠ []) (tail : Bytes)
    : ∃ text, stringMembers strings tail = 34 :: text := by
  rcases strings with _ | ⟨⟨name, value⟩, _ | ⟨next, strings⟩⟩
  . contradiction
  . exact ⟨_, rfl⟩
  . exact ⟨_, rfl⟩

theorem answersJson_iff (hnames : Names strings) (hend : EndsMembers others tail)
    (hutf8 : IsUtf8 (123 :: (stringMembers strings tail ++ [125])))
    : AnswersJson (123 :: (stringMembers strings tail ++ [125])) strings
        ↔
      ∀ member ∈ strings, NoControl member.2 := by
  rcases exists_cons_stringMembers hnames.ne_nil tail with ⟨text, htext⟩
  have htail : ∀ c more, tail = c :: more → c = 44 := by
    rintro c more rfl
    cases hend with
    | more => rfl
  have hread : ∀ json, IsText json (123 :: (stringMembers strings tail ++ [125]))
      → (∀ member ∈ strings, NoControl member.1 ∧ NoControl member.2)
        ∧ ∃ others, json = .object (asJson strings ++ others) := by
    intro json hjson
    rcases hjson.exists_members rfl htext with ⟨members, rfl, hmembers⟩
    rcases stringMembers_read hnames.ne_nil hmembers htail with ⟨hstrings, others, rfl⟩
    exact ⟨hstrings, others, rfl⟩
  constructor
  . rintro ⟨⟨json, hjson⟩, -⟩ member hmember
    exact ((hread json hjson).1 member hmember).2
  . intro hvalues
    constructor
    . refine ⟨_, Json.isText_object hutf8 (writes_stringMembers hnames.ne_nil ?_ hend)⟩
      intro member hmember
      exact ⟨hnames.noControl member hmember, hvalues member hmember⟩
    . intro json hjson
      rcases hread json hjson with ⟨-, others, rfl⟩
      exact member_asJson hnames.nodup

end Bodies

section Utf8

variable {value : Bytes}

theorem lit_eq (s : String) : Bytes.lit s = s.toList.flatMap String.utf8EncodeChar := by
  unfold Bytes.lit
  rw [String.toUTF8_eq_toByteArray]
  conv_lhs => rw [← String.ofList_toList (s := s), String.toByteArray_ofList]
  unfold List.utf8Encode
  simp

theorem isUtf8_lit (s : String) : IsUtf8 (Bytes.lit s) := ⟨s.toList, lit_eq s⟩

theorem jsonEscape_append (xs ys : Bytes) : jsonEscape (xs ++ ys) = jsonEscape xs ++ jsonEscape ys := by
  unfold jsonEscape
  rw [List.flatMap_append]

theorem jsonEscape_of_high (h : ∀ c ∈ value, 128 ≤ c) : jsonEscape value = value := by
  induction value with
  | nil => rfl
  | cons c value ih =>
    have hc := h c List.mem_cons_self
    have hne : ¬(c = 34 ∨ c = 92) := by
      rintro (rfl | rfl)
      . contradiction
      . contradiction
    rw [jsonEscape_cons, if_neg hne, ih fun d hd => h d (List.mem_cons_of_mem c hd)]

theorem isUtf8_jsonEscape (s : String) : IsUtf8 (jsonEscape (Bytes.lit s)) := by
  rw [lit_eq]
  induction s.toList with
  | nil => exact Json.isUtf8_nil
  | cons c chars ih =>
    rw [List.flatMap_cons, jsonEscape_append]
    apply IsUtf8.append _ ih
    rcases Json.utf8EncodeChar_cases c with ⟨b, hb, hc⟩ | hhigh
    . rw [hc]
      apply Json.isUtf8_of_ascii
      intro d hd
      simp only [jsonEscape, List.flatMap_cons, List.flatMap_nil, List.append_nil] at hd
      split at hd
      . rcases List.mem_cons.mp hd with rfl | hd
        . decide
        . rw [List.mem_singleton.mp hd]
          exact hb
      . rw [List.mem_singleton.mp hd]
        exact hb
    . rw [jsonEscape_of_high hhigh]
      exact ⟨[c], by simp⟩

end Utf8

section SendJson

variable (code message sid : String)

def sendJsonStrings : List (Bytes × Bytes) :=
  (Bytes.lit "code", Bytes.lit code) :: (Bytes.lit "message", Bytes.lit message)
    :: if Bytes.lit sid = [] then [] else [(Bytes.lit "requestId", Bytes.lit sid)]

theorem jsonBody_eq
    : jsonBody code message (Bytes.lit sid)
        =
      123 :: (stringMembers (sendJsonStrings code message sid) [] ++ [125]) := by
  have hcode : Bytes.lit "\x7b\"code\":\"" = 123 :: (quoted (Bytes.lit "code") ++ [58, 34]) := by
    decide
  have hmessage : Bytes.lit "\",\"message\":\"" = [34, 44] ++ quoted (Bytes.lit "message") ++ [58, 34] := by
    decide
  have hsid : Bytes.lit ",\"requestId\":\"" = [44] ++ quoted (Bytes.lit "requestId") ++ [58, 34] := by
    decide
  unfold jsonBody sendJsonStrings
  rw [hcode, hmessage, hsid]
  split
  . simp [stringMembers, quoted]
    rfl
  . simp [stringMembers, quoted]
    rfl

theorem names_sendJson : Names (sendJsonStrings code message sid) := by
  have hcode : NoControl (Bytes.lit "code") := by decide
  have hmessage : NoControl (Bytes.lit "message") := by decide
  have hsid : NoControl (Bytes.lit "requestId") := by decide
  unfold sendJsonStrings
  split
  . exact ⟨by simp, by simp [hcode, hmessage], by simp; decide⟩
  . exact ⟨by simp, by simp [hcode, hmessage, hsid], by simp; decide⟩

theorem isUtf8_jsonBody : IsUtf8 (jsonBody code message (Bytes.lit sid)) := by
  unfold jsonBody
  split
  . repeat' apply IsUtf8.append
    all_goals first | exact isUtf8_lit _ | exact isUtf8_jsonEscape _ | exact Json.isUtf8_nil
  . repeat' apply IsUtf8.append
    all_goals first | exact isUtf8_lit _ | exact isUtf8_jsonEscape _

theorem answersJson_jsonBody
    : AnswersJson (jsonBody code message (Bytes.lit sid)) (sendJsonStrings code message sid)
        ↔
      NoControl (Bytes.lit code) ∧ NoControl (Bytes.lit message) ∧ NoControl (Bytes.lit sid) := by
  have hutf8 := isUtf8_jsonBody code message sid
  rw [jsonBody_eq] at hutf8 ⊢
  rw [answersJson_iff (names_sendJson code message sid) .none hutf8]
  unfold sendJsonStrings
  split
  . next hsid => simp [hsid, NoControl]
  . simp

end SendJson

section SendSessionStatus

variable {text : Bytes}

theorem isNumber_ofNat (n : Nat) : Json.IsNumber (Bytes.ofNat n) := by
  have hint : Json.IsInt (Bytes.ofNat n) :=
    ⟨⟨Numeral.numeral_ne_nil 10 n, Numeral.isDecimal_of_mem n⟩, Numeral.eq_zero_of_head⟩
  simpa using Json.IsNumber.mk (.inl rfl) hint (.inl rfl) (.inl rfl)

def IsStamp (text : Bytes) : Prop :=
  ∀ c ∈ text, Numeral.isDecimal c = true ∨ c = 45 ∨ c = 58 ∨ c = 84 ∨ c = 90

theorem IsStamp.append {text' : Bytes} (h : IsStamp text) (h' : IsStamp text')
    : IsStamp (text ++ text') :=
  List.forall_mem_append.mpr ⟨h, h'⟩

theorem isStamp_ofNat (n : Nat) : IsStamp (Bytes.ofNat n) :=
  fun c hc => .inl (Numeral.isDecimal_of_mem n c hc)

theorem isStamp_ofInt (n : Int) : IsStamp (Bytes.ofInt n) := by
  unfold Bytes.ofInt
  split
  . exact List.forall_mem_cons.mpr ⟨.inr (.inl rfl), isStamp_ofNat _⟩
  . exact isStamp_ofNat _

theorem isStamp_twoDigits (n : Int) : IsStamp (twoDigits n) := by
  unfold twoDigits
  split
  . exact List.forall_mem_cons.mpr ⟨.inl rfl, isStamp_ofInt n⟩
  . exact isStamp_ofInt n

theorem isStamp_formatUtc (value : Int) : IsStamp (formatUtc value) := by
  have hdash : IsStamp (Bytes.lit "-") := by
    intro c hc
    simp [List.mem_singleton.mp hc]
  have hcolon : IsStamp (Bytes.lit ":") := by
    intro c hc
    simp [List.mem_singleton.mp hc]
  have ht : IsStamp (Bytes.lit "T") := by
    intro c hc
    simp [List.mem_singleton.mp hc]
  have hz : IsStamp (Bytes.lit "Z") := by
    intro c hc
    simp [List.mem_singleton.mp hc]
  unfold formatUtc
  exact (((((((((((isStamp_ofInt _).append hdash).append (isStamp_twoDigits _)).append hdash).append
    (isStamp_twoDigits _)).append ht).append (isStamp_twoDigits _)).append hcolon).append
    (isStamp_twoDigits _)).append hcolon).append (isStamp_twoDigits _)).append hz

theorem IsStamp.plain (h : IsStamp text) : ∀ c ∈ text, IsPlain c ∧ c < 128 := by
  intro c hc
  rcases h c hc with hdigit | rfl | rfl | rfl | rfl
  . have hle : 48 ≤ c ∧ c ≤ 57 := by simpa [Numeral.isDecimal] using hdigit
    refine ⟨⟨UInt8.le_trans (by decide) hle.1, ?_, ?_⟩, UInt8.lt_of_le_of_lt hle.2 (by decide)⟩
    . rintro rfl
      exact absurd hle.1 (by decide)
    . rintro rfl
      exact absurd hle.2 (by decide)
  all_goals
    refine ⟨⟨?_, ?_, ?_⟩, ?_⟩
    all_goals decide

variable (value : SessionStatus) (sid : String)

def statusStrings : List (Bytes × Bytes) :=
  [(Bytes.lit "sid", Bytes.lit sid), (Bytes.lit "status", Bytes.lit value.status),
    (Bytes.lit "endReason", Bytes.lit value.endReason),
    (Bytes.lit "message", Bytes.lit value.message)]

def statusTail : Bytes :=
  44 :: (quoted (Bytes.lit "queueCurrentBytes") ++ 58 :: (Bytes.ofNat value.queueCurrentBytes
    ++ 44 :: (quoted (Bytes.lit "queuePeakBytes") ++ 58 :: (Bytes.ofNat value.queuePeakBytes
    ++ 44 :: (quoted (Bytes.lit "backpressureEvents") ++ 58 :: (Bytes.ofNat value.backpressureEvents
    ++ 44 :: (quoted (Bytes.lit "outputReadyUtc") ++ 58 :: (utcOrNull value.outputReadyUtc
    ++ 44 :: (quoted (Bytes.lit "browserFirstFrameUtc") ++ 58 :: (utcOrNull value.browserFirstFrameUtc
    ++ 44 :: (quoted (Bytes.lit "updatedUtc")
      ++ 58 :: (34 :: (formatUtc value.updatedUtc ++ [34])))))))))))))

def utcJson (value : Option Int) : Json.Value :=
  match value with
  | some value => .string (formatUtc value)
  | none => .null

theorem writes_formatUtc (value : Int)
    : Writes (.string (formatUtc value)) (34 :: (formatUtc value ++ [34])) :=
  .string (Json.isString_plain fun c hc => ((isStamp_formatUtc value).plain c hc).1)

theorem writes_utcOrNull (value : Option Int) : Writes (utcJson value) (utcOrNull value) := by
  cases value with
  | none => exact .null
  | some value => exact writes_formatUtc value

theorem endsMembers_statusTail : ∃ others, EndsMembers others (statusTail value) := by
  have hupdated := writesMembers_one (by decide : NoControl (Bytes.lit "updatedUtc"))
    (writes_formatUtc value.updatedUtc)
  have hframe := writesMembers_more (by decide : NoControl (Bytes.lit "browserFirstFrameUtc"))
    (writes_utcOrNull value.browserFirstFrameUtc) hupdated
  have hready := writesMembers_more (by decide : NoControl (Bytes.lit "outputReadyUtc"))
    (writes_utcOrNull value.outputReadyUtc) hframe
  have hevents := writesMembers_more (by decide : NoControl (Bytes.lit "backpressureEvents"))
    (.number (isNumber_ofNat value.backpressureEvents)) hready
  have hpeak := writesMembers_more (by decide : NoControl (Bytes.lit "queuePeakBytes"))
    (.number (isNumber_ofNat value.queuePeakBytes)) hevents
  have hcurrent := writesMembers_more (by decide : NoControl (Bytes.lit "queueCurrentBytes"))
    (.number (isNumber_ofNat value.queueCurrentBytes)) hpeak
  exact ⟨_, .more hcurrent⟩

theorem sessionStatusBody_eq
    : sessionStatusBody { value with sid := Bytes.lit sid }
        =
      123 :: (stringMembers (statusStrings value sid) (statusTail value) ++ [125]) := by
  have hsid : Bytes.lit "\x7b\"sid\":\"" = 123 :: (quoted (Bytes.lit "sid") ++ [58, 34]) := by
    decide
  have hstatus : Bytes.lit "\",\"status\":\"" = 34 :: 44 :: (quoted (Bytes.lit "status") ++ [58, 34]) := by
    decide
  have hreason : Bytes.lit "\",\"endReason\":\""
      = 34 :: 44 :: (quoted (Bytes.lit "endReason") ++ [58, 34]) := by decide
  have hmessage : Bytes.lit "\",\"message\":\""
      = 34 :: 44 :: (quoted (Bytes.lit "message") ++ [58, 34]) := by decide
  have hcurrent : Bytes.lit "\",\"queueCurrentBytes\":"
      = 34 :: 44 :: (quoted (Bytes.lit "queueCurrentBytes") ++ [58]) := by decide
  have hpeak : Bytes.lit ",\"queuePeakBytes\":" = 44 :: (quoted (Bytes.lit "queuePeakBytes") ++ [58]) := by
    decide
  have hevents : Bytes.lit ",\"backpressureEvents\":"
      = 44 :: (quoted (Bytes.lit "backpressureEvents") ++ [58]) := by decide
  have hready : Bytes.lit ",\"outputReadyUtc\":" = 44 :: (quoted (Bytes.lit "outputReadyUtc") ++ [58]) := by
    decide
  have hframe : Bytes.lit ",\"browserFirstFrameUtc\":"
      = 44 :: (quoted (Bytes.lit "browserFirstFrameUtc") ++ [58]) := by decide
  have hupdated : Bytes.lit ",\"updatedUtc\":\"" = 44 :: (quoted (Bytes.lit "updatedUtc") ++ [58, 34]) := by
    decide
  have hend : Bytes.lit "\"\x7d" = [34, 125] := by decide
  unfold sessionStatusBody statusStrings statusTail
  rw [hsid, hstatus, hreason, hmessage, hcurrent, hpeak, hevents, hready, hframe, hupdated, hend]
  simp [stringMembers, quoted]

theorem names_status : Names (statusStrings value sid) := by
  have hsid : NoControl (Bytes.lit "sid") := by decide
  have hstatus : NoControl (Bytes.lit "status") := by decide
  have hreason : NoControl (Bytes.lit "endReason") := by decide
  have hmessage : NoControl (Bytes.lit "message") := by decide
  unfold statusStrings
  exact ⟨by simp, by simp [hsid, hstatus, hreason, hmessage], by simp; decide⟩

theorem IsStamp.utf8 (h : IsStamp text) : IsUtf8 text :=
  Json.isUtf8_of_ascii fun c hc => (h.plain c hc).2

theorem isUtf8_utcOrNull (value : Option Int) : IsUtf8 (utcOrNull value) := by
  cases value with
  | none => exact isUtf8_lit _
  | some value => exact ((isUtf8_lit _).append (isStamp_formatUtc value).utf8).append (isUtf8_lit _)

theorem isUtf8_sessionStatusBody
    : IsUtf8 (sessionStatusBody { value with sid := Bytes.lit sid }) := by
  have hupdated := (isStamp_formatUtc value.updatedUtc).utf8
  unfold sessionStatusBody
  dsimp only
  generalize formatUtc value.updatedUtc = updated at hupdated
  repeat' apply IsUtf8.append
  all_goals
    first
    | exact isUtf8_lit _
    | exact isUtf8_jsonEscape _
    | exact isUtf8_utcOrNull _
    | exact (isStamp_ofNat _).utf8
    | exact hupdated

theorem answersJson_sessionStatusBody
    : AnswersJson (sessionStatusBody { value with sid := Bytes.lit sid }) (statusStrings value sid)
        ↔
      NoControl (Bytes.lit sid) ∧ NoControl (Bytes.lit value.status)
        ∧ NoControl (Bytes.lit value.endReason) ∧ NoControl (Bytes.lit value.message) := by
  have hutf8 := isUtf8_sessionStatusBody value sid
  rcases endsMembers_statusTail value with ⟨others, hend⟩
  rw [sessionStatusBody_eq] at hutf8 ⊢
  rw [answersJson_iff (names_status value sid) hend hutf8]
  simp [statusStrings]

end SendSessionStatus

/--
Both kinds of bodies are JSON texts from which the strings are read back exactly when none of the
strings that they carry has a control character.
-/
theorem answersJson_iff_noControl (code message sid : String) (value : SessionStatus)
    : (AnswersJson (jsonBody code message (Bytes.lit sid)) (sendJsonStrings code message sid)
            ↔
          NoControl (Bytes.lit code) ∧ NoControl (Bytes.lit message) ∧ NoControl (Bytes.lit sid))
      ∧ (AnswersJson (sessionStatusBody { value with sid := Bytes.lit sid }) (statusStrings value sid)
            ↔
          NoControl (Bytes.lit sid) ∧ NoControl (Bytes.lit value.status)
            ∧ NoControl (Bytes.lit value.endReason) ∧ NoControl (Bytes.lit value.message)) :=
  ⟨answersJson_jsonBody code message sid, answersJson_sessionStatusBody value sid⟩

/--
The answer to `/session-status?sid=%0A`.
-/
theorem notJson_of_newline
    : let body := jsonBody "SESSION_NOT_FOUND" "会话状态不可用" (Bytes.lit "\n")
      ¬AnswersJson body (sendJsonStrings "SESSION_NOT_FOUND" "会话状态不可用" "\n") := by
  intro body hanswer
  have hsid := ((answersJson_jsonBody _ _ _).mp hanswer).2.2
  exact absurd hsid (by decide)

end HikBridge
