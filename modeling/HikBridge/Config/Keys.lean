import HikBridge.Config.Agreement

/-!
This module contains the sections and names that `load_config` reads, and when its lookups agree with
the members of a JSON document.
-/

namespace HikBridge

open Json (Blanks Literal Scalar Member Item Document)

namespace Config

def keys : List (String × String) :=
  [("server", "bind"), ("server", "port"), ("server", "maxSessions"), ("server", "maxHttpConnections"),
    ("sdk", "directory"), ("sdk", "readVideoCodecFromDevice"), ("sdk", "forceKeyFrameOnRealPlay"),
    ("sdk", "realPlayKeyFrameIntervalFrames"), ("sdk", "connectProbeTimeoutMs"),
    ("ffmpeg", "path"), ("ffmpeg", "logLevel"), ("ffmpeg", "hardwareAcceleration"),
    ("ffmpeg", "hardwareProbeTimeoutMs"), ("logging", "directory"), ("logging", "retentionDays"),
    ("media", "queueBytes"), ("media", "queueBackpressureMs"), ("media", "maxPlaybackSeconds"),
    ("media", "outputVideoCodec"), ("media", "videoEncoder"), ("media", "videoPreset"),
    ("media", "enableAudio"), ("media", "codecCacheSeconds"), ("media", "codecCacheFile"),
    ("timeouts", "sdkStartMs"), ("timeouts", "firstMediaMs"), ("timeouts", "noSdkDataMs"),
    ("timeouts", "outputStallMs"), ("timeouts", "clientWriteStallMs"),
    ("timeouts", "playbackKeepAliveMs")]

def intKeys : List (String × String) :=
  [("server", "port"), ("server", "maxSessions"), ("server", "maxHttpConnections"),
    ("sdk", "realPlayKeyFrameIntervalFrames"), ("sdk", "connectProbeTimeoutMs"),
    ("ffmpeg", "hardwareProbeTimeoutMs"), ("logging", "retentionDays"), ("media", "queueBytes"),
    ("media", "queueBackpressureMs"), ("media", "maxPlaybackSeconds"), ("media", "codecCacheSeconds"),
    ("timeouts", "sdkStartMs"), ("timeouts", "firstMediaMs"), ("timeouts", "noSdkDataMs"),
    ("timeouts", "outputStallMs"), ("timeouts", "clientWriteStallMs"),
    ("timeouts", "playbackKeepAliveMs")]

theorem intKeys_subset : intKeys ⊆ keys := by decide

end Config

def lookup (json : Bytes) (key : String × String) : Option Bytes :=
  jsonValue (jsonSection json (Bytes.lit key.1)) (Bytes.lit key.2)

section Reading

variable {a b : Bytes} {name : String}

theorem jsonInt_congr (h : jsonValue a (Bytes.lit name) = jsonValue b (Bytes.lit name))
    : jsonInt a name = jsonInt b name := by
  funext fallback
  rw [jsonInt, jsonInt, h]

theorem jsonBool_congr (h : jsonValue a (Bytes.lit name) = jsonValue b (Bytes.lit name))
    : jsonBool a name = jsonBool b name := by
  funext fallback
  rw [jsonBool, jsonBool, h]

theorem jsonString_congr (h : jsonValue a (Bytes.lit name) = jsonValue b (Bytes.lit name))
    : jsonString a name = jsonString b name := by
  funext fallback
  rw [jsonString, jsonString, h]

theorem load_congr {json json' : Bytes} (host : ConfigHost)
    (hkeys : ∀ key ∈ Config.keys, lookup json key = lookup json' key)
    (hsdkType : jsonValue json (Bytes.lit "sdktype") = jsonValue json' (Bytes.lit "sdktype"))
    : Config.load host json = Config.load host json' := by
  have hint : ∀ key ∈ Config.keys, jsonInt (jsonSection json (Bytes.lit key.1)) key.2
      = jsonInt (jsonSection json' (Bytes.lit key.1)) key.2 :=
    fun key hkey => jsonInt_congr (hkeys key hkey)
  have hbool : ∀ key ∈ Config.keys, jsonBool (jsonSection json (Bytes.lit key.1)) key.2
      = jsonBool (jsonSection json' (Bytes.lit key.1)) key.2 :=
    fun key hkey => jsonBool_congr (hkeys key hkey)
  have hstring : ∀ key ∈ Config.keys, jsonString (jsonSection json (Bytes.lit key.1)) key.2
      = jsonString (jsonSection json' (Bytes.lit key.1)) key.2 :=
    fun key hkey => jsonString_congr (hkeys key hkey)
  have htype := jsonString_congr hsdkType
  clear hkeys hsdkType
  simp only [Config.keys, List.forall_mem_cons, List.not_mem_nil, false_implies, implies_true,
    and_true] at hint hbool hstring
  simp only [Config.load, hint, hbool, hstring, htype]

end Reading

section Integers

variable {text : Bytes}

def IsInteger (text : Bytes) : Prop :=
  ∃ sign digits, text = sign ++ digits ∧ (sign = [] ∨ sign = [43] ∨ sign = [45]) ∧ Json.Digits digits

theorem stoi_eq_some_iff {n : Int}
    : Bytes.stoi text = some n ↔ Bytes.StartsWith text n ∧ Signed.Fits n := by
  have hwide : Signed.Fits n → -2 ^ 63 ≤ n ∧ n < 2 ^ 63 := by
    unfold Signed.Fits
    omega
  unfold Bytes.stoi
  constructor
  . intro h
    split at h
    . contradiction
    . next m hm =>
      split at h
      . next hfits =>
        cases h
        exact ⟨(Bytes.stoll_eq_some_iff.mp hm).1, hfits⟩
      . contradiction
  . rintro ⟨hstarts, hfits⟩
    rw [Bytes.stoll_eq_some_iff.mpr ⟨hstarts, hwide hfits⟩]
    exact if_pos hfits

end Integers

section Documents

variable {d : Document} {key : String × String}

def memberText (value : Json.Value) (key : String × String) : Option Bytes :=
  ((value.member? (Bytes.lit key.1)).bind (·.member? (Bytes.lit key.2))).bind Json.Value.read?

/--
Every lookup gives what the document has, and no integer is made of a value that is none.
-/
structure AgreesWithJson (value : Json.Value) (json : Bytes) : Prop where
  members : ∀ key ∈ Config.keys, lookup json key = memberText value key
  sdkType : jsonValue json (Bytes.lit "sdktype")
    = (value.member? (Bytes.lit "sdktype")).bind Json.Value.read?
  integers : ∀ key ∈ Config.intKeys, ∀ text ∈ lookup json key, ¬IsInteger text → ∀ fallback,
    jsonInt (jsonSection json (Bytes.lit key.1)) key.2 fallback
      = .error (invalidConfig ("配置项不是有效整数：" ++ key.2))

structure Located (d : Document) : Prop where
  sections : ∀ key ∈ Config.keys, SectionReached d (Bytes.lit key.1)
  members : ∀ key ∈ Config.keys,
    Reached Scalar.strings (Bytes.lit key.2) (sectionMembers d (Bytes.lit key.1))
  sdkType : Reached Item.strings (Bytes.lit "sdktype") d.members
  sdkScalar : ∀ m ∈ named (Bytes.lit "sdktype") d.members, ∃ s, m.value = .scalar s

/--
The values that are read have no escapes, and an integer at the start of one is the whole of it.
-/
structure Plain (d : Document) : Prop where
  members : ∀ key ∈ Config.keys,
    ∀ m ∈ named (Bytes.lit key.2) (sectionMembers d (Bytes.lit key.1)),
      ∀ raw ∈ m.value.strings, 92 ∉ raw
  sdkType : ∀ m ∈ named (Bytes.lit "sdktype") d.members, ∀ raw ∈ m.value.strings, 92 ∉ raw
  integers : ∀ key ∈ Config.intKeys,
    ∀ m ∈ named (Bytes.lit key.2) (sectionMembers d (Bytes.lit key.1)),
      ∀ n, Bytes.StartsWith m.value.read n → Signed.Fits n → IsInteger m.value.read

instance (name : Bytes) : Decidable (IsName name) :=
  @instDecidableAnd _ _ _ (List.decidableBAll _ name)

theorem isName_keys : ∀ key ∈ Config.keys, IsName (Bytes.lit key.1) ∧ IsName (Bytes.lit key.2) := by
  decide +kernel

theorem isName_sdkType : IsName (Bytes.lit "sdktype") := by decide +kernel

theorem lookup_eq (h : Located d) (hkey : key ∈ Config.keys)
    : lookup d.text key
        = (named (Bytes.lit key.2) (sectionMembers d (Bytes.lit key.1))).map fun m => taken m.value := by
  rcases jsonSection_text (isName_keys key hkey).1 (h.sections key hkey) with ⟨blanks, htext⟩
  rw [lookup, htext]
  exact jsonValue_innerText (isName_keys key hkey).2 (h.members key hkey) blanks

theorem member?_object {α : Type} (valueOf : α → Json.Value) (members : List (Member α)) (name : Bytes)
    : (Json.Value.object (members.map fun m => (m.name.value, valueOf m.value))).member? name
        = (named name members).map fun m => valueOf m.value := by
  rw [Json.Value.member?, List.find?_map, Option.map_map]
  rfl

theorem memberText_eq (d : Document) (key : String × String)
    : memberText d.value key
        = (named (Bytes.lit key.2) (sectionMembers d (Bytes.lit key.1))).map fun m => m.value.read := by
  rw [memberText, Document.value, member?_object, sectionMembers]
  cases named (Bytes.lit key.1) d.members with
  | none => rfl
  | some m =>
    dsimp only [Option.map_some, Option.bind_some]
    cases m.value with
    | object members blanks =>
      rw [Item.value, member?_object, Option.bind_map]
      dsimp only
      cases named (Bytes.lit key.2) members with
      | none => rfl
      | some m => exact m.value.read?_value
    | scalar s =>
      cases s with
      | string s => rfl
      | bare value text h =>
        cases h with
        | _ => rfl

theorem sdkType_value (h : Located d)
    : jsonValue d.text (Bytes.lit "sdktype")
        = (named (Bytes.lit "sdktype") d.members).bind fun m =>
          match m.value with
          | .scalar s => some (taken s)
          | .object _ _ => none := by
  cases hfound : named (Bytes.lit "sdktype") d.members with
  | none => exact jsonValue_of_cut_none (cut_document_none isName_sdkType h.sdkType hfound)
  | some m =>
    rcases h.sdkScalar m hfound with ⟨s, hs⟩
    rw [jsonValue_document isName_sdkType h.sdkType hfound hs, Option.bind_some, hs]

theorem sdkType_eq_iff (h : Located d)
    : jsonValue d.text (Bytes.lit "sdktype")
          = (d.value.member? (Bytes.lit "sdktype")).bind Json.Value.read?
        ↔
      ∀ m ∈ named (Bytes.lit "sdktype") d.members, ∀ raw ∈ m.value.strings, 92 ∉ raw := by
  rw [sdkType_value h, Document.value, member?_object]
  cases hfound : named (Bytes.lit "sdktype") d.members with
  | none => simp
  | some m =>
    rcases h.sdkScalar m hfound with ⟨s, hs⟩
    simp only [Option.bind_some, Option.map_some, hs, Option.mem_some, forall_eq', Item.value,
      Scalar.read?_value, Item.strings, Option.some.injEq]
    exact taken_eq_read_iff s

theorem lookup_eq_iff (h : Located d) (hkey : key ∈ Config.keys)
    : lookup d.text key = memberText d.value key
        ↔
      ∀ m ∈ named (Bytes.lit key.2) (sectionMembers d (Bytes.lit key.1)),
        ∀ raw ∈ m.value.strings, 92 ∉ raw := by
  rw [lookup_eq h hkey, memberText_eq]
  cases named (Bytes.lit key.2) (sectionMembers d (Bytes.lit key.1)) with
  | none => simp
  | some m =>
    simp only [Option.map_some, Option.some.injEq, Option.mem_some, forall_eq']
    exact taken_eq_read_iff m.value

/--
Where the searches come to their members, the lookups agree with the document exactly if no value that
is read has escapes or is an integer at its start only.
-/
theorem lookups_agreeWithJson_iff (h : Located d) : AgreesWithJson d.value d.text ↔ Plain d := by
  have hread : ∀ key ∈ Config.intKeys, ∀ m ∈ named (Bytes.lit key.2) (sectionMembers d (Bytes.lit key.1)),
      lookup d.text key = memberText d.value key → lookup d.text key = some m.value.read := by
    intro key _ m hm heq
    rw [heq, memberText_eq, hm]
    rfl
  constructor
  . rintro ⟨hmembers, hsdkType, hintegers⟩
    refine ⟨fun key hkey => (lookup_eq_iff h hkey).mp (hmembers key hkey), (sdkType_eq_iff h).mp hsdkType, ?_⟩
    intro key hkey m hm n hstarts hfits
    have htext := hread key hkey m hm (hmembers key (Config.intKeys_subset hkey))
    by_contra hinteger
    have herror := hintegers key hkey m.value.read htext hinteger 0
    rw [lookup] at htext
    rw [jsonInt, htext] at herror
    dsimp only at herror
    rw [stoi_eq_some_iff.mpr ⟨hstarts, hfits⟩] at herror
    contradiction
  . rintro ⟨hmembers, hsdkType, hintegers⟩
    have hlookup : ∀ key ∈ Config.keys, lookup d.text key = memberText d.value key :=
      fun key hkey => (lookup_eq_iff h hkey).mpr (hmembers key hkey)
    refine ⟨hlookup, (sdkType_eq_iff h).mpr hsdkType, ?_⟩
    intro key hkey text htext hinteger fallback
    have hkey' := Config.intKeys_subset hkey
    have hvalue := htext
    rw [Option.mem_def, hlookup key hkey', memberText_eq, Option.map_eq_some_iff] at hvalue
    rcases hvalue with ⟨m, hm, rfl⟩
    have hnone : Bytes.stoi m.value.read = none := by
      rw [Option.eq_none_iff_forall_ne_some]
      intro n hn
      rcases stoi_eq_some_iff.mp hn with ⟨hstarts, hfits⟩
      exact hinteger (hintegers key hkey m hm n hstarts hfits)
    rw [Option.mem_def, lookup] at htext
    rw [jsonInt, htext]
    dsimp only
    rw [hnone]

end Documents

section Samples

instance (c : UInt8) : Decidable (Json.IsPlain c) := inferInstanceAs (Decidable (_ ∧ _))

instance (d : Document) (name : Bytes) : Decidable (SectionReached d name) := by
  have hdecide : ∀ m : Member Item, Decidable (
      match m.value with
      | .scalar _ => 123 ∉ Member.texts Item.text (fromName name d.members)
      | .object members _ => NoFinalBackslash (members.flatMap (memberStrings Scalar.strings))) := by
    intro m
    cases m.value <;> infer_instance
  unfold SectionReached
  infer_instance

def noGap : Json.Gap := ⟨[], Json.blanks_nil⟩

def space : Json.Gap := ⟨[32], by simp [Json.Blanks, Json.isBlank]⟩

theorem bare_port : Json.Bare (.number (Bytes.lit "8080")) (Bytes.lit "8080") :=
  .number (Json.isNumber_of_isInt ⟨⟨by decide +kernel, by decide +kernel⟩, by decide +kernel⟩)

/--
`{"sdktype": "hcnetsdk", "note": "\"", "server": {"bind": "127.0.0.1", "port": 8080}}`
-/
def sample : Document where
  before := noGap
  members := [
    ⟨noGap, .plain (Bytes.lit "sdktype") (by decide +kernel), noGap, space,
      .scalar (.string (.plain (Bytes.lit "hcnetsdk") (by decide +kernel))), noGap⟩,
    ⟨space, .plain (Bytes.lit "note") (by decide +kernel), noGap, space,
      .scalar (.string ⟨[92, 34], [.byte 34], .escape rfl .nil⟩), noGap⟩,
    ⟨space, .plain (Bytes.lit "server") (by decide +kernel), noGap, space,
      .object [
        ⟨noGap, .plain (Bytes.lit "bind") (by decide +kernel), noGap, space,
          .string (.plain (Bytes.lit "127.0.0.1") (by decide +kernel)), noGap⟩,
        ⟨space, .plain (Bytes.lit "port") (by decide +kernel), noGap, space,
          .bare _ _ bare_port, noGap⟩] noGap, noGap⟩]
  blanks := noGap
  after := noGap

theorem located_sample : Located sample where
  sections := by decide +kernel
  members := by decide +kernel
  sdkType := by decide +kernel
  sdkScalar := by
    intro m hm
    cases hm
    exact ⟨_, rfl⟩

theorem plain_sample : Plain sample where
  members := by decide +kernel
  sdkType := by decide +kernel
  integers := by
    have hport : ∀ key ∈ Config.intKeys,
        ∀ m ∈ named (Bytes.lit key.2) (sectionMembers sample (Bytes.lit key.1)),
          m.value.read = Bytes.lit "8080" := by
      decide +kernel
    intro key hkey m hm _ _ _
    rw [hport key hkey m hm]
    exact ⟨[], Bytes.lit "8080", rfl, .inl rfl, by decide +kernel, by decide +kernel⟩

theorem lookups_agreeWithJson_sample : AgreesWithJson sample.value sample.text :=
  (lookups_agreeWithJson_iff located_sample).mpr plain_sample

/--
`{"logging": {"directory": "C:\\logs"}}`
-/
def slashed : Document where
  before := noGap
  members := [
    ⟨noGap, .plain (Bytes.lit "logging") (by decide +kernel), noGap, space,
      .object [
        ⟨noGap, .plain (Bytes.lit "directory") (by decide +kernel), noGap, space,
          .string ⟨67 :: 58 :: 92 :: 92 :: Bytes.lit "logs",
            .byte 67 :: .byte 58 :: .byte 92 :: (Bytes.lit "logs").map .byte,
            .plain (by decide) (by decide) (by decide) (.plain (by decide) (by decide) (by decide)
              (.escape rfl (Json.spells_plain (by decide +kernel))))⟩, noGap⟩] noGap, noGap⟩]
  blanks := noGap
  after := noGap

/--
The backslashes of a Windows path are not taken for escapes.
-/
theorem not_agreesWithJson_slashed : ¬AgreesWithJson slashed.value slashed.text := by
  intro h
  have hdirectory := h.members ("logging", "directory") (by decide)
  have hread : lookup slashed.text ("logging", "directory")
      ≠ memberText slashed.value ("logging", "directory") := by
    decide +kernel
  exact hread hdirectory

end Samples
end HikBridge
