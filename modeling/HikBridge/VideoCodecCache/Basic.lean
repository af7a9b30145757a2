import Mathlib.Data.Bool.AllAny
import HikBridge.Lib.Delimited
import HikBridge.Numbers
import HikBridge.Video.Basic

/-!
This module contains the keys of the codec cache and the rows of its file.
-/

namespace HikBridge

inductive Stream where
  | Main
  | Sub
  deriving DecidableEq, Repr

inductive ChannelType where
  | Auto
  | Analog
  | Digital
  | DigitalIndex
  deriving DecidableEq, Repr

def ChannelType.toInt : ChannelType → Int
  | .Auto => 0
  | .Analog => 1
  | .Digital => 2
  | .DigitalIndex => 3

def Stream.toInt : Stream → Int
  | .Main => 0
  | .Sub => 1

namespace VideoCodecCache

/--
The whole request, of which the `/video` handler on its own reads less. The speed is given by the
bits of the `double`.
-/
structure StreamRequest where
  option : StreamOption
  ip : Bytes
  port : Int
  username : Bytes
  password : Bytes
  camera : Int
  channelType : ChannelType
  stream : Stream
  speed : UInt64
  start : Int
  stop : Int
  sid : Bytes
  generation : Bytes
  deriving DecidableEq, Repr

structure Source where
  ip : Bytes
  port : Int
  camera : Int
  channelType : ChannelType
  stream : Stream
  deriving DecidableEq, Repr

def StreamRequest.source (request : StreamRequest) : Source :=
  ⟨request.ip, request.port, request.camera, request.channelType, request.stream⟩

structure Entry where
  codec : DetectedVideoCodec
  expires : Int
  deriving DecidableEq, Repr

def newline : UInt8 := 10

def tab : UInt8 := 9

def makeKey (request : StreamRequest) : Bytes :=
  request.ip ++ [newline] ++ Bytes.ofInt request.port ++ [newline] ++ Bytes.ofInt request.camera ++
    [newline] ++ Bytes.ofInt request.channelType.toInt ++ [newline] ++
    Bytes.ofInt request.stream.toInt

def setw2 (text : Bytes) : Bytes := List.replicate (2 - text.length) 48 ++ text

def hexEncode (input : Bytes) : Bytes :=
  input.flatMap fun ch => setw2 (Numeral.numeral 16 ch.toNat)

def hexDecode : Bytes → Option Bytes
  | [] => some []
  | [_] => none
  | high :: low :: rest =>
    match Numeral.digitVal high, Numeral.digitVal low with
    | some h, some l => (hexDecode rest).map (UInt8.ofNat (16 * h + l) :: ·)
    | _, _ => none

def codecText (codec : DetectedVideoCodec) : Bytes :=
  if codec = .H264 then Bytes.lit "h264" else Bytes.lit "h265"

def parseCodec (text : Bytes) : DetectedVideoCodec :=
  if text = Bytes.lit "h264" then .H264
  else if text = Bytes.lit "h265" then .H265
  else .Unknown

def row (key : Bytes) (entry : Entry) : Bytes :=
  Bytes.ofInt entry.expires ++ [tab] ++ codecText entry.codec ++ [tab] ++ hexEncode key

def parseRow (line : Bytes) : Option (Bytes × Entry) := do
  let (expiresText, line) ← Delimited.getline tab line
  let (codecText, line) ← Delimited.getline tab line
  let (encodedKey, _) ← Delimited.getline newline line
  let expires ← Bytes.stoll expiresText
  let key ← hexDecode encodedKey
  some (key, ⟨parseCodec codecText, expires⟩)

theorem toInt_injective {x y : ChannelType} (h : x.toInt = y.toInt) : x = y := by
  cases x <;> cases y <;> first | rfl | contradiction

theorem stream_toInt_injective {x y : Stream} (h : x.toInt = y.toInt) : x = y := by
  cases x <;> cases y <;> first | rfl | contradiction

theorem newline_not_mem_ofInt (n : Int) : newline ∉ Bytes.ofInt n :=
  Bytes.not_mem_ofInt (by decide) (by decide) n

theorem tab_not_mem_ofInt (n : Int) : tab ∉ Bytes.ofInt n :=
  Bytes.not_mem_ofInt (by decide) (by decide) n

theorem eq_of_field_eq {xs ys : Bytes} {m n : Int}
    (h : xs ++ [newline] ++ Bytes.ofInt m = ys ++ [newline] ++ Bytes.ofInt n) : xs = ys ∧ m = n := by
  rw [List.append_assoc, List.append_assoc, List.singleton_append, List.singleton_append] at h
  obtain ⟨hxs, htext⟩ := Numeral.eq_of_append_cons_eq (newline_not_mem_ofInt m)
    (newline_not_mem_ofInt n) h
  exact ⟨hxs, Bytes.ofInt_injective htext⟩

theorem makeKey_eq_iff {r r' : StreamRequest} : makeKey r = makeKey r' ↔ r.source = r'.source := by
  constructor
  . intro h
    unfold makeKey at h
    obtain ⟨h, hstream⟩ := eq_of_field_eq h
    obtain ⟨h, htype⟩ := eq_of_field_eq h
    obtain ⟨h, hcamera⟩ := eq_of_field_eq h
    obtain ⟨hip, hport⟩ := eq_of_field_eq h
    unfold StreamRequest.source
    rw [hip, hport, hcamera, toInt_injective htype, stream_toInt_injective hstream]
  . intro h
    unfold StreamRequest.source at h
    injection h with hip hport hcamera htype hstream
    unfold makeKey
    rw [hip, hport, hcamera, htype, hstream]

theorem makeKey_ne_nil (r : StreamRequest) : makeKey r ≠ [] := by
  simp [makeKey]

theorem setw2_numeral (ch : UInt8)
    : setw2 (Numeral.numeral 16 ch.toNat)
        =
      [UInt8.ofNat (ch.toNat / 16).digitChar.toNat, UInt8.ofNat (ch.toNat % 16).digitChar.toNat] := by
  have hlt : ch.toNat < 256 := ch.toNat_lt_size
  unfold setw2
  rcases Nat.lt_or_ge ch.toNat 16 with h | h
  . rw [Numeral.numeral_of_lt h, Nat.div_eq_of_lt h, Nat.mod_eq_of_lt h]
    rfl
  . rw [Numeral.numeral_of_le (by omega) h, Numeral.numeral_of_lt (by omega : ch.toNat / 16 < 16)]
    rfl

theorem hexDecode_hexEncode (key : Bytes) : hexDecode (hexEncode key) = some key := by
  induction key with
  | nil => rfl
  | cons ch key ih =>
    have hlt : ch.toNat < 256 := ch.toNat_lt_size
    have hhigh := Numeral.digitVal_digitChar (by omega : ch.toNat / 16 < 16)
    have hlow := Numeral.digitVal_digitChar (by omega : ch.toNat % 16 < 16)
    have hbyte : UInt8.ofNat (16 * (ch.toNat / 16) + ch.toNat % 16) = ch := by
      rw [Nat.div_add_mod, UInt8.ofNat_toNat]
    unfold hexEncode at ih ⊢
    rw [List.flatMap_cons, setw2_numeral]
    simp only [List.cons_append, List.nil_append, hexDecode, hhigh, hlow, ih, Option.map_some, hbyte]

theorem not_mem_hexEncode {c : UInt8} (hc : Numeral.digitVal c = none) (key : Bytes)
    : c ∉ hexEncode key := by
  unfold hexEncode
  intro hmem
  obtain ⟨ch, _, hmem⟩ := List.mem_flatMap.mp hmem
  unfold setw2 at hmem
  rcases List.mem_append.mp hmem with hmem | hmem
  . rw [List.eq_of_mem_replicate hmem] at hc
    contradiction
  . exact Numeral.not_mem_numeral (by omega) (by omega) _ hc hmem

theorem hexEncode_ne_nil {key : Bytes} (h : key ≠ []) : hexEncode key ≠ [] := by
  intro hnil
  have hdecode := hexDecode_hexEncode key
  rw [hnil] at hdecode
  injection hdecode with hdecode
  exact h hdecode.symm

theorem parseCodec_codecText {codec : DetectedVideoCodec} (h : codec ≠ .Unknown)
    : parseCodec (codecText codec) = codec := by
  cases codec with
  | Unknown => contradiction
  | H264 => decide
  | H265 => decide

theorem not_mem_codecText {c : UInt8} (h : c < 48) (codec : DetectedVideoCodec)
    : c ∉ codecText codec := by
  have hall : ∀ d ∈ Bytes.lit "h264" ++ Bytes.lit "h265", ¬ d < 48 :=
    List.all_iff_forall_prop.mp (by decide)
  unfold codecText
  intro hmem
  split at hmem
  . exact hall c (List.mem_append_left _ hmem) h
  . exact hall c (List.mem_append_right _ hmem) h

theorem newline_not_mem_row (key : Bytes) (entry : Entry) : newline ∉ row key entry := by
  unfold row
  simp only [List.mem_append, List.mem_singleton, not_or]
  refine ⟨⟨⟨⟨newline_not_mem_ofInt _, by decide⟩, ?_⟩, by decide⟩, ?_⟩
  . apply not_mem_codecText (by decide)
  . apply not_mem_hexEncode (by decide)

def IsTime (t : Int) : Prop := -2 ^ 63 ≤ t ∧ t < 2 ^ 63

theorem parseRow_row {key : Bytes} {entry : Entry} (hkey : key ≠ [])
    (hcodec : entry.codec ≠ .Unknown) (htime : IsTime entry.expires)
    : parseRow (row key entry) = some (key, entry) := by
  have hrow : row key entry
      = Bytes.ofInt entry.expires ++ tab :: (codecText entry.codec ++ tab :: hexEncode key) := by
    simp [row]
  unfold parseRow
  rw [hrow, Delimited.getline_append_sep (tab_not_mem_ofInt _)]
  simp only [Option.bind_eq_bind, Option.bind_some]
  rw [Delimited.getline_append_sep (not_mem_codecText (by decide) _)]
  simp only [Option.bind_some]
  rw [Delimited.getline_of_not_mem (hexEncode_ne_nil hkey) (not_mem_hexEncode (by decide) key)]
  simp only [Option.bind_some, Bytes.stoll_ofInt htime.1 htime.2, hexDecode_hexEncode,
    parseCodec_codecText hcodec]

end VideoCodecCache

end HikBridge
