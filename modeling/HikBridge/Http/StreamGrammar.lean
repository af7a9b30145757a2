import HikBridge.Http.StreamRequest

/-!
This module contains the texts that `parse_stream_request` accepts, compared with the documented ones.
-/

namespace HikBridge

open Exchange (invalidParameter)

section Errors

variable {α β : Type} {x : Except BridgeError α}

def Rejects (x : Except BridgeError α) : Prop :=
  ∀ error, x = .error error → ∃ message, error = invalidParameter message

theorem rejects_ok (a : α) : Rejects (.ok a) := by
  intro error h
  contradiction

theorem rejects_error (message : String) : @Rejects α (.error (invalidParameter message)) := by
  intro error h
  exact ⟨message, (Except.error.inj h).symm⟩

theorem Rejects.bind {f : α → Except BridgeError β} (hx : Rejects x) (hf : ∀ a, Rejects (f a))
    : Rejects (x >>= f) := by
  intro error h
  cases x with
  | error error' =>
    have herror : (Except.error error' : Except BridgeError β) = .error error := h
    rw [← Except.error.inj herror]
    exact hx error' rfl
  | ok a => exact hf a error h

theorem rejects_required (query : Query) (name : String) : Rejects (required query name) := by
  unfold required
  split
  . exact rejects_error _
  . exact rejects_error _
  . exact rejects_ok _

theorem rejects_parseLong (value : Bytes) (name : String) : Rejects (parseLong value name) := by
  unfold parseLong
  split
  . exact rejects_error _
  . split
    . exact rejects_ok _
    . exact rejects_error _

theorem rejects_parseInt (value : Bytes) (name : String) : Rejects (parseInt value name) := by
  apply (rejects_parseLong value name).bind
  intro result
  split
  . exact rejects_error _
  . exact rejects_ok _

theorem rejects_parseOption (option : Bytes) : Rejects (parseOption option) := by
  unfold parseOption
  split
  . exact rejects_ok _
  . split
    . exact rejects_ok _
    . exact rejects_error _

theorem rejects_parseChannelType (channelType : Bytes) : Rejects (parseChannelType channelType) := by
  unfold parseChannelType
  split
  . exact rejects_ok _
  . split
    . exact rejects_ok _
    . split
      . exact rejects_ok _
      . split
        . exact rejects_ok _
        . exact rejects_error _

theorem rejects_parseStream (stream : Bytes) : Rejects (parseStream stream) := by
  unfold parseStream
  split
  . exact rejects_ok _
  . split
    . exact rejects_ok _
    . exact rejects_error _

theorem rejects_parseSpeed (point : UInt8) (speedText : Bytes)
    : Rejects (parseSpeed point speedText) := by
  unfold parseSpeed
  split
  . exact rejects_error _
  . split
    . exact rejects_ok _
    . exact rejects_error _

theorem rejects_parseTimes (query : Query) (config : Config) (option : StreamOption)
    (speed : Float.Model) : Rejects (parseTimes query config option speed) := by
  cases option with
  | RealPlay =>
    unfold parseTimes
    dsimp only
    split
    . exact rejects_ok _
    . exact rejects_error _
  | Playback =>
    apply (rejects_required query "start").bind
    intro startText
    apply (rejects_parseLong startText "start").bind
    intro start
    apply (rejects_required query "end").bind
    intro stopText
    apply (rejects_parseLong stopText "end").bind
    intro stop
    split
    . exact rejects_error _
    . exact rejects_ok _

theorem rejects_parseStreamRequest (point : UInt8) (query : Query) (config : Config)
    : Rejects (parseStreamRequest point query config) := by
  apply (rejects_required query "option").bind
  intro optionText
  apply (rejects_parseOption optionText).bind
  intro option
  apply (rejects_required query "ip").bind
  intro ip
  apply (rejects_required query "port").bind
  intro portText
  apply (rejects_parseInt portText "port").bind
  intro port
  apply (rejects_required query "username").bind
  intro username
  apply (rejects_required query "password").bind
  intro password
  apply (rejects_required query "camera").bind
  intro cameraText
  apply (rejects_parseInt cameraText "camera").bind
  intro camera
  apply (rejects_required query "sid").bind
  intro sid
  apply (rejects_parseChannelType _).bind
  intro channelType
  apply (rejects_parseStream _).bind
  intro stream
  apply (rejects_parseSpeed point _).bind
  intro speed
  split
  . apply (rejects_parseTimes query config option speed).bind
    intro times
    exact rejects_ok _
  . exact rejects_error _

end Errors

section Texts

variable {text : Bytes} {name : String} {n : Int}

inductive Spelled : Bytes → Int → Prop where
  | mk {sign digits : Bytes} {value : Nat} (hsign : sign = [] ∨ sign = [43] ∨ sign = [45])
      (hne : digits ≠ []) (hdigits : ∀ c ∈ digits, Numeral.isDecimal c = true)
      (hvalue : Numeral.value 10 0 digits = some value)
      : Spelled (sign ++ digits) (if sign = [45] then -value else value)

def SpelledLoosely (text : Bytes) (n : Int) : Prop :=
  ∃ blanks number, text = blanks ++ number ∧ (∀ c ∈ blanks, Bytes.isSpace c = true) ∧ Spelled number n

theorem SpelledLoosely.ne_nil (h : SpelledLoosely text n) : text ≠ [] := by
  rcases h with ⟨blanks, number, rfl, -, hnumber⟩
  cases hnumber with
  | mk _ hne _ _ => simp [hne]

def Tight (text : Bytes) : Prop := ∀ c ∈ text.head?, Bytes.isSpace c = false

theorem Spelled.tight (h : Spelled text n) : Tight text := by
  cases h with
  | @mk sign digits value hsign hne hdigits hvalue =>
    rcases hsign with rfl | rfl | rfl
    . intro c hc
      exact Bytes.isSpace_of_isDecimal (hdigits c (List.mem_of_mem_head? hc))
    . intro c hc
      cases hc
      rfl
    . intro c hc
      cases hc
      rfl

theorem spelled_of_tight (h : SpelledLoosely text n) (htight : Tight text) : Spelled text n := by
  rcases h with ⟨blanks, number, rfl, hblanks, hnumber⟩
  cases blanks with
  | nil => exact hnumber
  | cons c blanks =>
    have hspace := hblanks c List.mem_cons_self
    rw [htight c rfl] at hspace
    contradiction

theorem unread_append {blanks sign digits rest : Bytes} (hblanks : ∀ c ∈ blanks, Bytes.isSpace c = true)
    (hsign : sign = [] ∨ sign = [43] ∨ sign = [45]) (hne : digits ≠ [])
    (hdigits : ∀ c ∈ digits, Numeral.isDecimal c = true)
    (hrest : ∀ c ∈ rest.head?, Numeral.isDecimal c = false)
    : (blanks ++ (sign ++ (digits ++ rest))).unread = rest := by
  have hhead := Bytes.isDecimal_head hne hdigits rest
  rw [Bytes.unread, Bytes.dropWhile_sign hblanks hsign hhead, Bytes.sign_append hsign hhead]
  dsimp only
  rw [List.dropWhile_append_of_pos hdigits]
  cases rest with
  | nil => rfl
  | cons c rest => rw [List.dropWhile_cons_of_neg (by simp [hrest c rfl])]

theorem parseLong_eq_ok_iff
    : parseLong text name = .ok n ↔ SpelledLoosely text n ∧ -2 ^ 63 ≤ n ∧ n < 2 ^ 63 := by
  have hread : parseLong text name = .ok n ↔ Bytes.stoll text = some n ∧ text.unread = [] := by
    unfold parseLong
    split
    . next hnone => simp [hnone]
    . next m hm =>
      split
      . next hunread => simp [hm, hunread]
      . next hunread => simp [hunread]
  rw [hread, Bytes.stoll_eq_some_iff]
  constructor
  . rintro ⟨⟨hstarts, hfits⟩, hunread⟩
    refine ⟨?_, hfits⟩
    cases hstarts with
    | @mk blanks sign digits rest value hblanks hsign hne hdigits hrest hvalue =>
      rw [unread_append hblanks hsign hne hdigits hrest] at hunread
      subst hunread
      exact ⟨blanks, sign ++ digits, by simp, hblanks, .mk hsign hne hdigits hvalue⟩
  . rintro ⟨⟨blanks, number, rfl, hblanks, hnumber⟩, hfits⟩
    cases hnumber with
    | @mk sign digits value hsign hne hdigits hvalue =>
      have hnil : ∀ c ∈ ([] : Bytes).head?, Numeral.isDecimal c = false := by simp
      have hstarts := Bytes.StartsWith.mk hblanks hsign hne hdigits hnil hvalue
      have hunread := unread_append hblanks hsign hne hdigits hnil
      rw [List.append_nil] at hstarts hunread
      exact ⟨⟨hstarts, hfits⟩, hunread⟩

theorem parseInt_eq_ok_iff
    : parseInt text name = .ok n ↔ SpelledLoosely text n ∧ -2147483648 ≤ n ∧ n ≤ 2147483647 := by
  rw [parseInt, bind_eq_ok_iff]
  constructor
  . rintro ⟨m, hm, h⟩
    split at h
    . contradiction
    . next hrange =>
      cases h
      exact ⟨(parseLong_eq_ok_iff.mp hm).1, by omega, by omega⟩
  . rintro ⟨hspelled, hlow, hhigh⟩
    exact ⟨n, parseLong_eq_ok_iff.mpr ⟨hspelled, by omega, by omega⟩, if_neg (by omega)⟩

theorem required_eq_ok_iff {query : Query}
    : required query name = .ok text ↔ query (Bytes.lit name) = some text ∧ text ≠ [] := by
  unfold required
  split
  . next h => simp [h]
  . next h =>
    constructor
    . intro hok
      contradiction
    . rintro ⟨htext, hne⟩
      rw [h] at htext
      exact absurd (Option.some.inj htext).symm hne
  . next value hne h =>
    rw [h]
    constructor
    . intro hok
      cases hok
      refine ⟨rfl, ?_⟩
      rintro rfl
      exact hne rfl
    . rintro ⟨htext, -⟩
      cases htext
      rfl

end Texts

section Names

def StreamOption.text : StreamOption → Bytes
  | .RealPlay => Bytes.lit "realplay"
  | .Playback => Bytes.lit "playback"

def ChannelType.texts : ChannelType → List Bytes
  | .Auto => [Bytes.lit "auto"]
  | .Analog => [Bytes.lit "analog"]
  | .Digital => [Bytes.lit "digital", Bytes.lit "ip"]
  | .DigitalIndex => [Bytes.lit "digitalIndex"]

def Stream.text : Stream → Bytes
  | .Main => Bytes.lit "main"
  | .Sub => Bytes.lit "sub"

variable {text : Bytes}

theorem parseOption_eq_ok_iff {option : StreamOption}
    : parseOption text = .ok option ↔ text = option.text := by
  unfold parseOption
  constructor
  . intro h
    split at h
    . next htext =>
      cases h
      exact htext
    . split at h
      . next htext =>
        cases h
        exact htext
      . contradiction
  . rintro rfl
    cases option
    all_goals rfl

theorem parseStream_eq_ok_iff {stream : Stream}
    : parseStream text = .ok stream ↔ text = stream.text := by
  unfold parseStream
  constructor
  . intro h
    split at h
    . next htext =>
      cases h
      exact htext
    . split at h
      . next htext =>
        cases h
        exact htext
      . contradiction
  . rintro rfl
    cases stream
    all_goals rfl

theorem parseChannelType_eq_ok_iff {channelType : ChannelType}
    : parseChannelType text = .ok channelType ↔ text ∈ channelType.texts := by
  unfold parseChannelType
  constructor
  . intro h
    split at h
    . next htext =>
      cases h
      exact List.mem_singleton.mpr htext
    . split at h
      . next htext =>
        cases h
        exact List.mem_singleton.mpr htext
      . split at h
        . next htext =>
          cases h
          rcases htext with rfl | rfl
          . exact List.mem_cons_self
          . exact List.mem_cons_of_mem _ List.mem_cons_self
        . split at h
          . next htext =>
            cases h
            exact List.mem_singleton.mpr htext
          . contradiction
  . intro h
    cases channelType with
    | Digital =>
      simp only [ChannelType.texts, List.mem_cons, List.not_mem_nil, or_false] at h
      rcases h with rfl | rfl
      all_goals rfl
    | _ =>
      rw [List.mem_singleton.mp h]
      rfl

theorem parseSpeed_eq_ok_iff {point : UInt8} {speed : Float.Model}
    : parseSpeed point text = .ok speed ↔ Bytes.stod point text = some speed ∧ isValidSpeed speed := by
  unfold parseSpeed
  split
  . next h => simp [h]
  . next read h =>
    rw [h]
    split
    . next hvalid =>
      constructor
      . intro hok
        cases hok
        exact ⟨rfl, hvalid⟩
      . rintro ⟨hspeed, -⟩
        cases hspeed
        rfl
    . next hvalid =>
      constructor
      . intro hok
        contradiction
      . rintro ⟨hspeed, hread⟩
        cases hspeed
        exact absurd hread hvalid

end Names

section Speeds

variable {point : UInt8} {text : Bytes} {speed : Float.Model}

def documentedSpeeds : List (Bytes × Float.Model) :=
  [(Bytes.lit "16", .ofNat 16), (Bytes.lit "8", .ofNat 8), (Bytes.lit "4", .ofNat 4),
    (Bytes.lit "2", .ofNat 2), (Bytes.lit "1", .ofNat 1), (Bytes.lit "0.5", .ofScientific 5 (-1)),
    (Bytes.lit "0.25", .ofScientific 25 (-2)), (Bytes.lit "0.125", .ofScientific 125 (-3)),
    (Bytes.lit "0.0625", .ofScientific 625 (-4))]

theorem stod_of_ne_point (hpoint : point ≠ 46) (fraction : Bytes)
    : Bytes.stod point (48 :: 46 :: fraction) = some (.ofScientific 0 0) := by
  have hne : (46 : UInt8) ≠ point := Ne.symm hpoint
  have hzero : Bytes.mantissa 10 Numeral.isDecimal point (48 :: 46 :: fraction)
      = some (0, 0, 46 :: fraction) := by
    simp [Bytes.mantissa, Numeral.isDecimal, hne, Numeral.value, Numeral.digitVal]
  have hdecimal : Bytes.decimal point (48 :: 46 :: fraction) = some (some (.ofScientific 0 0)) := by
    have hexponent : Bytes.exponent 101 (46 :: fraction) = 0 := rfl
    have hrange : Bytes.inRange 0 (.ofScientific 0 0) = some (.ofScientific 0 0) := by decide +kernel
    rw [Bytes.decimal, hzero, Option.map_some]
    dsimp only
    rw [hexponent]
    exact congrArg some hrange
  have hhexadecimal : Bytes.hexadecimal point (48 :: 46 :: fraction) = none := rfl
  have hspace : (48 :: 46 :: fraction).dropWhile Bytes.isSpace = 48 :: 46 :: fraction := rfl
  have hsign : Bytes.sign (48 :: 46 :: fraction) = (false, 48 :: 46 :: fraction) := rfl
  have hinf : ((48 :: 46 :: fraction).take 3).map toLower ≠ Bytes.lit "inf" := by
    intro h
    have hhead : some (toLower 48) = (Bytes.lit "inf").head? := congrArg List.head? h
    exact absurd hhead (by decide)
  have hnan : ((48 :: 46 :: fraction).take 3).map toLower ≠ Bytes.lit "nan" := by
    intro h
    have hhead : some (toLower 48) = (Bytes.lit "nan").head? := congrArg List.head? h
    exact absurd hhead (by decide)
  rw [Bytes.stod, hspace, hsign]
  dsimp only
  rw [if_neg hinf, if_neg hnan, hhexadecimal, hdecimal]
  rfl

theorem stod_documented (h : (text, speed) ∈ documentedSpeeds) : Bytes.stod 46 text = some speed := by
  have hall : ∀ entry ∈ documentedSpeeds, Bytes.stod 46 entry.1 = some entry.2 := by decide +kernel
  exact hall _ h

theorem documented_cases : ∀ entry ∈ documentedSpeeds,
    (∀ point, Bytes.stod point entry.1 = some entry.2)
      ∨ ∃ fraction, entry.1 = 48 :: 46 :: fraction := by
  unfold documentedSpeeds
  simp only [List.forall_mem_cons, List.not_mem_nil, false_implies, implies_true, and_true]
  refine ⟨.inl ?_, .inl ?_, .inl ?_, .inl ?_, .inl ?_, .inr ⟨Bytes.lit "5", rfl⟩,
    .inr ⟨Bytes.lit "25", rfl⟩, .inr ⟨Bytes.lit "125", rfl⟩, .inr ⟨Bytes.lit "0625", rfl⟩⟩
  all_goals
    intro point
    rfl

theorem stod_of_documented (h : (text, speed) ∈ documentedSpeeds) (hpoint : point = 46 ∨ 46 ∉ text)
    : Bytes.stod point text = some speed := by
  rcases hpoint with rfl | hpoint
  . exact stod_documented h
  . rcases documented_cases _ h with hwhole | ⟨fraction, hfraction⟩
    . exact hwhole point
    . dsimp only at hfraction
      rw [hfraction] at hpoint
      exact absurd (List.mem_cons_of_mem _ List.mem_cons_self) hpoint

theorem isValidSpeed_of_documented (h : (text, speed) ∈ documentedSpeeds)
    : isValidSpeed speed = true := by
  have hall : ∀ entry ∈ documentedSpeeds, isValidSpeed entry.2 = true := by decide +kernel
  exact hall (text, speed) h

theorem not_isValidSpeed_of_ne_point (htext : text ∈ documentedSpeeds.map Prod.fst) (hpoint : point ≠ 46)
    (hmem : 46 ∈ text) (hread : Bytes.stod point text = some speed) : ¬isValidSpeed speed = true := by
  have hwhole : ∀ entry ∈ documentedSpeeds, 46 ∈ entry.1 → ∃ fraction, entry.1 = 48 :: 46 :: fraction := by
    unfold documentedSpeeds
    simp only [List.forall_mem_cons, List.not_mem_nil, false_implies, implies_true, and_true]
    refine ⟨fun h => ?_, fun h => ?_, fun h => ?_, fun h => ?_, fun h => ?_, fun _ => ⟨Bytes.lit "5", rfl⟩,
      fun _ => ⟨Bytes.lit "25", rfl⟩, fun _ => ⟨Bytes.lit "125", rfl⟩, fun _ => ⟨Bytes.lit "0625", rfl⟩⟩
    all_goals exact absurd h (by decide +kernel)
  rcases List.mem_map.mp htext with ⟨entry, hentry, rfl⟩
  rcases hwhole entry hentry hmem with ⟨fraction, hfraction⟩
  rw [hfraction, stod_of_ne_point hpoint] at hread
  rw [← Option.some.inj hread]
  decide +kernel

theorem documented_of_stod (htext : text ∈ documentedSpeeds.map Prod.fst)
    (hread : Bytes.stod point text = some speed) (hvalid : isValidSpeed speed = true)
    : (text, speed) ∈ documentedSpeeds := by
  have hentry : ∃ documented, (text, documented) ∈ documentedSpeeds := by simpa using htext
  rcases hentry with ⟨documented, hdocumented⟩
  by_cases hpoint : point = 46 ∨ 46 ∉ text
  . rw [stod_of_documented hdocumented hpoint] at hread
    cases hread
    exact hdocumented
  . rw [not_or, Classical.not_not] at hpoint
    exact absurd hvalid (not_isValidSpeed_of_ne_point htext hpoint.1 hpoint.2 hread)

end Speeds

end HikBridge
