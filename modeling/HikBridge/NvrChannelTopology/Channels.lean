import HikBridge.NvrChannelTopology.Ports

/-!
This module contains what the C++ bridge makes of the channels that a device reports: for which reports
the arithmetic stays within `int`, and what is true of a channel that `resolve` returns.
-/

namespace HikBridge

namespace DeviceReport

variable (r : DeviceReport)

def firstAnalogChannel : Nat :=
  if 0 < r.device.byChanNum.toNat ∧ r.device.byStartChan.toNat = 0 then 1 else r.device.byStartChan.toNat

structure Representable : Prop where
  ipConfig : ∀ c, r.ipConfig = some c →
    c.dwAChanNum.toNat ≤ intMax ∧ c.dwDChanNum.toNat ≤ intMax ∧ c.dwStartDChan.toNat ≤ intMax
  analog : r.analogChannels = 0 ∨ r.firstAnalogChannel + r.analogChannels ≤ intMax
  digital : r.digitalChannels = 0 ∨ r.firstDigitalChannel + r.digitalChannels ≤ intMax

end DeviceReport

structure AdmittedCamera (camera : Int) (requestedType : ChannelType) : Prop where
  fits : Signed.Fits camera
  nonneg : 0 ≤ camera
  positive : requestedType ≠ .DigitalIndex → 1 ≤ camera

namespace NvrChannelTopology

variable {r : DeviceReport} {t : NvrChannelTopology} {camera channel : Int} {requestedType : ChannelType}
  {resolvedType : ResolvedChannelType}

section Resolve

theorem ensureAnalogEnabled_eq (hbounds : t.InBounds) (hcamera : Signed.Fits camera)
    (hcovers : covers t.analogStart t.analogCount camera = true)
    : t.ensureAnalogEnabled camera
        =
      if t.ipParameterConfigRead && !t.enabledAt (camera - t.analogStart) then
        refuse "ANALOG_CHANNEL_DISABLED"
          ("camera=" ++ toString camera ++ " 是模拟通道，但已禁用或 NVR 未配置模拟输入")
      else
        .ok () := by
  unfold ensureAnalogEnabled
  rw [Signed.sub?_of_fits (fits_sub_of_covers hbounds hcamera hcovers)]
  rfl

def Resolves (t : NvrChannelTopology) (camera : Int)
    : ChannelType → Int × ResolvedChannelType → Prop
  | .Analog, result =>
    covers t.analogStart t.analogCount camera = true ∧ result = (camera, .Analog)
      ∧ (t.ipParameterConfigRead = true → t.enabledAt (camera - t.analogStart) = true)
  | .Digital, result =>
    covers t.digitalStart t.digitalCount camera = true ∧ result = (camera, .Digital)
  | .DigitalIndex, result =>
    (0 ≤ camera ∧ camera < t.digitalCount) ∧ result = (t.digitalStart + camera, .Digital)
  | .Auto, result =>
    (covers t.analogStart t.analogCount camera = true ∧ result = (camera, .Analog)
        ∧ (t.ipParameterConfigRead = true → t.enabledAt (camera - t.analogStart) = true))
      ∨ (covers t.analogStart t.analogCount camera = false
        ∧ covers t.digitalStart t.digitalCount camera = true ∧ result = (camera, .Digital))

theorem resolve_cases (hbounds : t.InBounds) (hcamera : Signed.Fits camera) (requestedType : ChannelType)
    : (∃ error, t.resolve camera requestedType = .error (.bridge error)
        ∧ ∀ result, ¬ Resolves t camera requestedType result)
      ∨ ∃ result, t.resolve camera requestedType = .ok result ∧ Resolves t camera requestedType result := by
  have hanalog : t.isAnalog camera = .ok (covers t.analogStart t.analogCount camera) :=
    inRange_of_stop (fun _ => hbounds.analogStart_nonneg) hbounds.analogStop
  have hdigital : t.isDigital camera = .ok (covers t.digitalStart t.digitalCount camera) :=
    inRange_of_stop hbounds.digitalStart_nonneg hbounds.digitalStop
  obtain ⟨analogRange, hanalogRange⟩ := channelRange_isOk hbounds.analogStop
  obtain ⟨digitalRange, hdigitalRange⟩ := channelRange_isOk hbounds.digitalStop
  unfold resolve
  rw [hanalog, hdigital]
  simp only [bind, Except.bind]
  cases requestedType with
  | Analog =>
    dsimp only [Resolves]
    cases hcovers : covers t.analogStart t.analogCount camera with
    | false =>
      left
      split
      . exact ⟨_, rfl, by simp⟩
      . rw [hanalogRange]
        exact ⟨_, rfl, by simp⟩
    | true =>
      have hcount : ¬ t.analogCount ≤ 0 := by
        simp only [covers, decide_eq_true_eq] at hcovers
        omega
      rw [if_neg hcount, ensureAnalogEnabled_eq hbounds hcamera hcovers]
      cases hread : t.ipParameterConfigRead with
      | false => exact .inr ⟨_, rfl, by simp⟩
      | true =>
        cases henabled : t.enabledAt (camera - t.analogStart) with
        | false => exact .inl ⟨_, rfl, by simp⟩
        | true => exact .inr ⟨_, rfl, by simp⟩
  | Digital =>
    dsimp only [Resolves]
    cases hcovers : covers t.digitalStart t.digitalCount camera with
    | false =>
      left
      split
      . exact ⟨_, rfl, by simp⟩
      . rw [hdigitalRange]
        exact ⟨_, rfl, by simp⟩
    | true =>
      have hcount : ¬ t.digitalCount ≤ 0 := by
        simp only [covers, decide_eq_true_eq] at hcovers
        omega
      rw [if_neg hcount]
      exact .inr ⟨_, rfl, by simp⟩
  | DigitalIndex =>
    dsimp only [Resolves]
    by_cases hcount : t.digitalCount ≤ 0
    . rw [if_pos hcount]
      left
      refine ⟨_, rfl, ?_⟩
      rintro result ⟨hindex, -⟩
      omega
    . have hstart := hbounds.digitalStart_nonneg (by omega)
      have hstop := hbounds.digitalStop (by omega)
      rw [if_neg hcount]
      by_cases hindex : camera < 0 ∨ camera ≥ t.digitalCount
      . have hlast : Signed.Fits (t.digitalCount - 1) := by
          unfold Signed.Fits
          omega
        rw [if_pos hindex, Signed.sub?_of_fits hlast]
        left
        refine ⟨_, rfl, ?_⟩
        rintro result ⟨hinside, -⟩
        omega
      . have hchannel : Signed.Fits (t.digitalStart + camera) := by
          unfold Signed.Fits
          omega
        rw [if_neg hindex, Signed.add?_of_fits hchannel]
        exact .inr ⟨_, rfl, by omega, rfl⟩
  | Auto =>
    dsimp only [Resolves]
    cases hcovers : covers t.analogStart t.analogCount camera with
    | false =>
      cases hcovers' : covers t.digitalStart t.digitalCount camera with
      | false =>
        left
        rw [hanalogRange, hdigitalRange]
        exact ⟨_, rfl, by simp⟩
      | true => exact .inr ⟨_, rfl, by simp⟩
    | true =>
      rw [if_pos rfl, ensureAnalogEnabled_eq hbounds hcamera hcovers]
      cases hread : t.ipParameterConfigRead with
      | false => exact .inr ⟨_, rfl, by simp⟩
      | true =>
        cases henabled : t.enabledAt (camera - t.analogStart) with
        | false => exact .inl ⟨_, rfl, by simp⟩
        | true => exact .inr ⟨_, rfl, by simp⟩

theorem Resolves.unique {result result' : Int × ResolvedChannelType} (h : Resolves t camera requestedType result)
    (h' : Resolves t camera requestedType result') : result = result' := by
  cases requestedType with
  | Analog => rw [h.2.1, h'.2.1]
  | Digital => rw [h.2, h'.2]
  | DigitalIndex => rw [h.2, h'.2]
  | Auto =>
    rcases h with ⟨hcovers, heq, -⟩ | ⟨hcovers, -, heq⟩ <;>
      rcases h' with ⟨hcovers', heq', -⟩ | ⟨hcovers', -, heq'⟩
    . rw [heq, heq']
    . rw [hcovers] at hcovers'
      contradiction
    . rw [hcovers] at hcovers'
      contradiction
    . rw [heq, heq']

theorem resolve_eq_ok_iff (hbounds : t.InBounds) (hcamera : Signed.Fits camera)
    {result : Int × ResolvedChannelType}
    : t.resolve camera requestedType = .ok result ↔ Resolves t camera requestedType result := by
  rcases resolve_cases hbounds hcamera requestedType with ⟨error, herror, hnone⟩ | ⟨result', hok, hresult'⟩
  . rw [herror]
    exact ⟨fun h => (by cases h), fun h => absurd h (hnone result)⟩
  . rw [hok]
    constructor
    . intro h
      cases h
      exact hresult'
    . intro h
      rw [hresult'.unique h]

theorem resolve_ne_undefined (hbounds : t.InBounds) (hcamera : Signed.Fits camera)
    : t.resolve camera requestedType ≠ .error .undefined := by
  rcases resolve_cases hbounds hcamera requestedType with ⟨error, herror, -⟩ | ⟨result, hok, -⟩
  . rw [herror]
    simp
  . rw [hok]
    simp

end Resolve

section Bounds

theorem read_analogStart_eq (r : DeviceReport) : (read r).analogStart = r.firstAnalogChannel := by
  rw [read_analogStart]
  unfold DeviceReport.firstAnalogChannel
  split <;> rfl

theorem read_digitalStart_eq (h : ∀ c, r.ipConfig = some c → c.dwStartDChan.toNat ≤ 2147483647)
    : (read r).digitalStart = r.firstDigitalChannel := by
  rw [read_digitalStart, Signed.wrap_of_fits]
  have hbyte := r.device.byStartDChan.toNat_lt
  unfold Signed.Fits DeviceReport.firstDigitalChannel
  cases hread : r.ipConfig with
  | none =>
    dsimp only
    omega
  | some c =>
    have hc := h c hread
    dsimp only
    split <;> omega

theorem inBounds_of_representable (h : r.Representable) : (read r).InBounds := by
  have hanalog := h.analog
  have hdigital := h.digital
  have hdigitalStart := read_digitalStart_eq fun c hc => (h.ipConfig c hc).2.2
  unfold DeviceReport.intMax at hanalog hdigital
  constructor
  . rw [read_analogStart_eq]
    omega
  . rw [read_analogStart_eq, read_analogCount]
    omega
  . rw [hdigitalStart]
    omega
  . rw [hdigitalStart, read_digitalCount]
    omega

end Bounds

def converted (r : DeviceReport) : List UInt32 :=
  match r.ipConfig with
  | none => []
  | some c => [c.dwAChanNum, c.dwDChanNum, c.dwStartDChan].filter (· > 0)

structure ArithmeticFits (r : DeviceReport) : Prop where
  conversions : ∀ n ∈ converted r, Signed.Fits n.toNat
  operations : ∀ camera requestedType, AdmittedCamera camera requestedType →
    (read r).resolve camera requestedType ≠ .error .undefined

/--
The arithmetic stays within `int` for every camera exactly when the report is representable.
-/
theorem arithmeticFits_iff_representable (r : DeviceReport) : ArithmeticFits r ↔ r.Representable := by
  constructor
  . intro h
    have hread := h.conversions
    have hconfig : ∀ c, r.ipConfig = some c → c.dwAChanNum.toNat ≤ 2147483647
        ∧ c.dwDChanNum.toNat ≤ 2147483647 ∧ c.dwStartDChan.toNat ≤ 2147483647 := by
      intro c hc
      unfold converted Signed.Fits at hread
      rw [hc] at hread
      have hfield : ∀ n ∈ [c.dwAChanNum, c.dwDChanNum, c.dwStartDChan], n.toNat ≤ 2147483647 := by
        intro n hn
        by_cases hpos : n > 0
        . have hle := (hread n (List.mem_filter.mpr ⟨hn, by simpa using hpos⟩)).2
          omega
        . rw [pos_iff_toNat] at hpos
          omega
      simpa using hfield
    have hmax : ∀ requestedType, AdmittedCamera 2147483647 requestedType :=
      fun _ => ⟨by decide, by decide, fun _ => by decide⟩
    refine ⟨hconfig, ?_, ?_⟩
    . by_contra hnot
      unfold DeviceReport.intMax at hnot
      have hstart : r.firstAnalogChannel ≤ 2147483647 := by
        have hbyte := r.device.byStartChan.toNat_lt
        unfold DeviceReport.firstAnalogChannel
        split <;> omega
      apply h.operations 2147483647 .Analog (hmax .Analog)
      apply resolve_of_analogOverflow
      . rw [read_analogCount]
        omega
      . rw [read_analogStart_eq]
        omega
      . rw [read_analogStart_eq, read_analogCount]
        omega
    . by_contra hnot
      unfold DeviceReport.intMax at hnot
      have hdigitalStart := read_digitalStart_eq fun c hc => (hconfig c hc).2.2
      have hstart : Signed.Fits (read r).digitalStart := by
        rw [read_digitalStart]
        exact Signed.fits_wrap _
      rw [hdigitalStart] at hstart
      apply h.operations 2147483647 .Digital (hmax .Digital)
      apply resolve_of_digitalOverflow
      . rw [read_digitalCount]
        omega
      . rw [hdigitalStart]
        exact hstart.2
      . rw [hdigitalStart, read_digitalCount]
        omega
  . intro h
    constructor
    . intro n hn
      have hconfig := h.ipConfig
      unfold converted at hn
      unfold DeviceReport.intMax at hconfig
      cases hread : r.ipConfig with
      | none =>
        rw [hread] at hn
        cases hn
      | some c =>
        have hc := hconfig c hread
        rw [hread] at hn
        have hmem := (List.mem_filter.mp hn).1
        unfold Signed.Fits
        simp only [List.mem_cons, List.not_mem_nil, or_false] at hmem
        rcases hmem with rfl | rfl | rfl
        . omega
        . omega
        . omega
    . intro camera requestedType hcamera
      exact resolve_ne_undefined (inBounds_of_representable h) hcamera.fits

def farReport : DeviceReport where
  device :=
    { byChanNum := 0, byStartChan := 0, byIPChanNum := 16, byStartDChan := 33, byHighDChanNum := 0 }
  ipConfig := some
    { dwAChanNum := 0, dwDChanNum := 16, dwStartDChan := 2147483640, byAnalogChanEnable := fun _ => 0 }

theorem overflow_on_farReport
    : (read farReport).resolve 33 .Digital = .error .undefined ∧ ¬ ArithmeticFits farReport := by
  have hundefined : (read farReport).resolve 33 .Digital = .error .undefined := by decide +kernel
  refine ⟨hundefined, fun h => ?_⟩
  exact h.operations 33 .Digital ⟨by decide, by decide, fun _ => by decide⟩ hundefined

section Sound

variable (r)

def Reports : ResolvedChannelType → Int → Prop
  | .Analog, channel =>
    r.firstAnalogChannel ≤ channel ∧ channel < r.firstAnalogChannel + r.analogChannels
  | .Digital, channel =>
    r.firstDigitalChannel ≤ channel ∧ channel < r.firstDigitalChannel + r.digitalChannels
  | .Unknown, _ => False

def Enables (channel : Int) : Prop :=
  ∃ index : Fin maxChannum, channel = r.firstAnalogChannel + index.val ∧ ∃ c, r.ipConfig = some c ∧
    if c.dwAChanNum > 0 then c.byAnalogChanEnable index ≠ 0 else index.val < r.device.byChanNum.toNat

-- The channel that a request asks for.
def requestedChannel (camera : Int) : ChannelType → Int
  | .DigitalIndex => r.firstDigitalChannel + camera
  | _ => camera

structure ResolvesSoundly : Prop where
  positive : ∀ camera requestedType channel resolvedType, AdmittedCamera camera requestedType →
    (read r).resolve camera requestedType = .ok (channel, resolvedType) → 1 ≤ channel
  reported : ∀ camera requestedType channel resolvedType, AdmittedCamera camera requestedType →
    (read r).resolve camera requestedType = .ok (channel, resolvedType) → Reports r resolvedType channel
  enabled : ∀ camera requestedType channel, AdmittedCamera camera requestedType → r.ipConfig.isSome →
    (read r).resolve camera requestedType = .ok (channel, .Analog) → Enables r channel
  digital : ∀ index channel resolvedType, AdmittedCamera index .DigitalIndex →
    (read r).resolve index .DigitalIndex = .ok (channel, resolvedType) →
      (read r).resolve channel .Digital = .ok (channel, resolvedType)
  injective : ∀ index index' channel resolvedType resolvedType', AdmittedCamera index .DigitalIndex →
    AdmittedCamera index' .DigitalIndex →
    (read r).resolve index .DigitalIndex = .ok (channel, resolvedType) →
    (read r).resolve index' .DigitalIndex = .ok (channel, resolvedType') → index = index'
  refused : ∀ camera requestedType, AdmittedCamera camera requestedType →
    (∀ resolvedType, ¬ Reports r resolvedType (requestedChannel r camera requestedType)) →
      ∃ error, (read r).resolve camera requestedType = .error (.bridge error)

variable {r}

theorem covers_analog_iff
    : covers (read r).analogStart (read r).analogCount channel = true ↔ Reports r .Analog channel := by
  unfold covers Reports
  rw [read_analogStart_eq, read_analogCount, decide_eq_true_eq]
  omega

theorem covers_digital_iff (h : r.Representable)
    : covers (read r).digitalStart (read r).digitalCount channel = true ↔ Reports r .Digital channel := by
  unfold covers Reports
  rw [read_digitalStart_eq fun c hc => (h.ipConfig c hc).2.2, read_digitalCount, decide_eq_true_eq]
  omega

theorem enables_of_enabledAt (hconfig : r.ipConfig.isSome)
    (h : (read r).enabledAt (channel - (read r).analogStart) = true) : Enables r channel := by
  obtain ⟨c, hc⟩ := Option.isSome_iff_exists.mp hconfig
  rw [read_analogStart_eq] at h
  unfold enabledAt at h
  split at h
  . next hindex =>
    refine ⟨⟨(channel - r.firstAnalogChannel).toNat, by omega⟩, ?_, c, hc, ?_⟩
    . dsimp only
      omega
    . unfold read at h
      rw [hc] at h
      dsimp only [readIpConfig] at h
      split
      . next hcount =>
        rw [if_pos hcount] at h
        simpa using h
      . next hcount =>
        rw [if_neg hcount] at h
        simpa using h
  . contradiction

theorem read_ipParameterConfigRead (r : DeviceReport) : (read r).ipParameterConfigRead = r.ipConfig.isSome := by
  unfold read
  cases r.ipConfig <;> rfl

theorem reports_of_resolves (h : r.Representable) {result : Int × ResolvedChannelType}
    (hresolves : Resolves (read r) camera requestedType result) : Reports r result.2 result.1 := by
  cases requestedType with
  | Analog =>
    obtain ⟨hcovers, rfl, -⟩ := hresolves
    exact covers_analog_iff.mp hcovers
  | Digital =>
    obtain ⟨hcovers, rfl⟩ := hresolves
    exact (covers_digital_iff h).mp hcovers
  | DigitalIndex =>
    obtain ⟨hindex, rfl⟩ := hresolves
    have hstart := read_digitalStart_eq fun c hc => (h.ipConfig c hc).2.2
    rw [read_digitalCount] at hindex
    unfold Reports
    dsimp only
    omega
  | Auto =>
    rcases hresolves with ⟨hcovers, rfl, -⟩ | ⟨-, hcovers, rfl⟩
    . exact covers_analog_iff.mp hcovers
    . exact (covers_digital_iff h).mp hcovers

theorem requestedChannel_of_resolves (h : r.Representable) {result : Int × ResolvedChannelType}
    (hresolves : Resolves (read r) camera requestedType result)
    : result.1 = requestedChannel r camera requestedType := by
  cases requestedType with
  | Analog =>
    rw [hresolves.2.1]
    rfl
  | Digital =>
    rw [hresolves.2]
    rfl
  | DigitalIndex =>
    rw [hresolves.2, read_digitalStart_eq fun c hc => (h.ipConfig c hc).2.2]
    rfl
  | Auto =>
    rcases hresolves with ⟨-, rfl, -⟩ | ⟨-, -, rfl⟩ <;> rfl

theorem enables_of_resolves (hconfig : r.ipConfig.isSome)
    (hresolves : Resolves (read r) camera requestedType (channel, .Analog)) : Enables r channel := by
  have henabled : channel = camera ∧ (read r).enabledAt (camera - (read r).analogStart) = true := by
    have hread := read_ipParameterConfigRead r
    rw [hconfig] at hread
    cases requestedType with
    | Analog => exact ⟨(Prod.mk.inj hresolves.2.1).1, hresolves.2.2 hread⟩
    | Digital => cases (Prod.mk.inj hresolves.2).2
    | DigitalIndex => cases (Prod.mk.inj hresolves.2).2
    | Auto =>
      rcases hresolves with ⟨-, heq, henabled⟩ | ⟨-, -, heq⟩
      . exact ⟨(Prod.mk.inj heq).1, henabled hread⟩
      . cases (Prod.mk.inj heq).2
  apply enables_of_enabledAt hconfig
  rw [henabled.1]
  exact henabled.2

/--
For a representable report the channels that `resolve` returns are right exactly when no digital range
starts at 0.
-/
theorem resolvesSoundly_iff (h : r.Representable)
    : ResolvesSoundly r ↔ r.digitalChannels = 0 ∨ 1 ≤ r.firstDigitalChannel := by
  have hbounds := inBounds_of_representable h
  have hstart := read_digitalStart_eq fun c hc => (h.ipConfig c hc).2.2
  have hcount := read_digitalCount r
  constructor
  . intro hsound
    by_contra hnot
    have hadmitted : AdmittedCamera 0 .DigitalIndex := ⟨by decide, by decide, fun hne => absurd rfl hne⟩
    have hzero : (read r).resolve 0 .DigitalIndex = .ok (0, .Digital) := by
      rw [resolve_eq_ok_iff hbounds hadmitted.fits]
      refine ⟨by omega, ?_⟩
      have hstartZero : (read r).digitalStart = 0 := by omega
      rw [hstartZero]
      rfl
    have hpositive := hsound.positive 0 .DigitalIndex 0 .Digital hadmitted hzero
    omega
  . intro hdigital
    constructor
    . intro camera requestedType channel resolvedType hcamera hok
      rw [resolve_eq_ok_iff hbounds hcamera.fits] at hok
      have hrequested := requestedChannel_of_resolves h hok
      dsimp only at hrequested
      by_cases htype : requestedType = .DigitalIndex
      . subst htype
        have hindex := hok.1
        have hnonneg := hcamera.nonneg
        unfold requestedChannel at hrequested
        dsimp only at hrequested
        omega
      . have hpositive := hcamera.positive htype
        have heq : requestedChannel r camera requestedType = camera := by
          cases requestedType with
          | DigitalIndex => exact absurd rfl htype
          | Analog => rfl
          | Digital => rfl
          | Auto => rfl
        omega
    . intro camera requestedType channel resolvedType hcamera hok
      rw [resolve_eq_ok_iff hbounds hcamera.fits] at hok
      exact reports_of_resolves h hok
    . intro camera requestedType channel hcamera hconfig hok
      rw [resolve_eq_ok_iff hbounds hcamera.fits] at hok
      exact enables_of_resolves hconfig hok
    . intro index channel resolvedType hindex hok
      rw [resolve_eq_ok_iff hbounds hindex.fits] at hok
      obtain ⟨hinside, heq⟩ := hok
      obtain ⟨rfl, rfl⟩ := Prod.mk.inj heq
      have hstop := hbounds.digitalStop (by omega)
      have hfits : Signed.Fits ((read r).digitalStart + index) := by
        unfold Signed.Fits
        omega
      rw [resolve_eq_ok_iff hbounds hfits]
      refine ⟨?_, rfl⟩
      unfold covers
      rw [decide_eq_true_eq]
      omega
    . intro index index' channel resolvedType resolvedType' hindex hindex' hok hok'
      rw [resolve_eq_ok_iff hbounds hindex.fits] at hok
      rw [resolve_eq_ok_iff hbounds hindex'.fits] at hok'
      have heq := (Prod.mk.inj hok.2).1
      have heq' := (Prod.mk.inj hok'.2).1
      omega
    . intro camera requestedType hcamera hnone
      rcases resolve_cases hbounds hcamera.fits requestedType with ⟨error, herror, -⟩ | ⟨result, -, hresolves⟩
      . exact ⟨error, herror⟩
      . have hreports := reports_of_resolves h hresolves
        rw [requestedChannel_of_resolves h hresolves] at hreports
        exact absurd hreports (hnone result.2)

def numberedReport : DeviceReport where
  device :=
    { byChanNum := 4, byStartChan := 1, byIPChanNum := 16, byStartDChan := 33, byHighDChanNum := 0 }
  ipConfig := none

theorem resolvesSoundly_numberedReport : ResolvesSoundly numberedReport := by
  have hrepresentable : numberedReport.Representable := ⟨fun _ hc => (by cases hc), by decide, by decide⟩
  exact (resolvesSoundly_iff hrepresentable).mpr (by decide)

def unnumberedReport : DeviceReport where
  device :=
    { byChanNum := 0, byStartChan := 0, byIPChanNum := 4, byStartDChan := 0, byHighDChanNum := 0 }
  ipConfig := none

theorem channelZero_on_unnumberedReport
    : unnumberedReport.Representable ∧ (read unnumberedReport).resolve 0 .DigitalIndex = .ok (0, .Digital)
      ∧ ¬ ResolvesSoundly unnumberedReport := by
  have hzero : (read unnumberedReport).resolve 0 .DigitalIndex = .ok (0, .Digital) := by decide +kernel
  refine ⟨⟨fun _ hc => (by cases hc), by decide, by decide⟩, hzero, fun h => ?_⟩
  have hpositive := h.positive 0 .DigitalIndex 0 .Digital
    ⟨by decide, by decide, fun hne => absurd rfl hne⟩ hzero
  omega

end Sound

end NvrChannelTopology
end HikBridge
