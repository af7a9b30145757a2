import HikBridge.NvrChannelTopology.CSharp

/-!
This module compares the two ports of `NvrChannelTopology`: for which devices the C++ bridge and the C#
bridge send the same SDK channel to the device, whatever the request asks for.
-/

namespace HikBridge

def SameAnswer
    : Resolution (Int × ResolvedChannelType) → Except BridgeError (Int × ResolvedChannelType) → Prop
  | .ok channel, .ok channel' => channel = channel'
  | .error (.bridge error), .error error' => error.code = error'.code
  | _, _ => False

instance (r : Resolution (Int × ResolvedChannelType))
    (r' : Except BridgeError (Int × ResolvedChannelType)) : Decidable (SameAnswer r r') := by
  unfold SameAnswer
  split <;> infer_instance

namespace DeviceReport

variable (r : DeviceReport)

def intMax : Nat := 2147483647

def countOf (count : IpParaCfg → UInt32) : Nat :=
  match r.ipConfig with
  | none => 0
  | some c => if (count c).toNat ≤ intMax then (count c).toNat else 0

def analogChannels : Nat := max r.device.byChanNum.toNat (r.countOf IpParaCfg.dwAChanNum)

def digitalChannels : Nat :=
  max (r.device.byIPChanNum.toNat + 256 * r.device.byHighDChanNum.toNat)
    (r.countOf IpParaCfg.dwDChanNum)

def firstDigitalChannel : Nat :=
  match r.ipConfig with
  | none => r.device.byStartDChan.toNat
  | some c =>
    if c.dwStartDChan.toNat = 0 then r.device.byStartDChan.toNat else c.dwStartDChan.toNat

/--
The login names a first analog channel if it counts analog channels, and no range that the device
reports goes beyond the `int`s.
-/
def Plain : Prop :=
  (r.device.byChanNum = 0 ∨ r.device.byStartChan ≠ 0)
    ∧ r.device.byStartChan.toNat + r.analogChannels ≤ intMax
    ∧ (r.digitalChannels = 0 ∨ r.firstDigitalChannel + r.digitalChannels ≤ intMax)

end DeviceReport

namespace NvrChannelTopology

variable {r : DeviceReport} {t t' : NvrChannelTopology} {camera start count : Int}

structure InBounds (t : NvrChannelTopology) : Prop where
  analogStart_nonneg : 0 ≤ t.analogStart
  analogStop : 0 < t.analogCount → t.analogStart + t.analogCount ≤ 2147483647
  digitalStart_nonneg : 0 < t.digitalCount → 0 ≤ t.digitalStart
  digitalStop : 0 < t.digitalCount → t.digitalStart + t.digitalCount ≤ 2147483647

structure Alike (t t' : NvrChannelTopology) : Prop where
  analogStart_eq : t'.analogStart = t.analogStart
  analogCount_eq : t'.analogCount = t.analogCount
  digitalCount_eq : t'.digitalCount = t.digitalCount
  digitalStart_eq : 0 < t.digitalCount → t'.digitalStart = t.digitalStart
  analogEnabled_eq : t'.analogEnabled = t.analogEnabled
  ipParameterConfigRead_eq : t'.ipParameterConfigRead = t.ipParameterConfigRead

def covers (start count camera : Int) : Bool :=
  decide (0 < count ∧ start ≤ camera ∧ camera < start + count)

theorem inRange_of_stop (hstart : 0 < count → 0 ≤ start)
    (hstop : 0 < count → start + count ≤ 2147483647)
    : inRange start count camera = .ok (covers start count camera) := by
  unfold inRange covers
  split
  . next h =>
    have hfits : Signed.Fits (start + count) := by
      have hlow := hstart h.1
      have hhigh := hstop h.1
      unfold Signed.Fits
      omega
    rw [Signed.add?_of_fits hfits]
    simp only [checked, bind, Except.bind, pure, Except.pure]
    congr 1
    simp only [decide_eq_decide]
    omega
  . next h =>
    simp only [pure, Except.pure]
    congr 1
    simp only [Bool.false_eq, decide_eq_false_iff_not]
    omega

theorem inRange_of_overflow (hcount : 0 < count) (hstart : start ≤ camera)
    (hstop : 2147483647 < start + count) : inRange start count camera = .error .undefined := by
  have hfits : ¬ Signed.Fits (start + count) := by
    unfold Signed.Fits
    omega
  unfold inRange
  rw [if_pos ⟨hcount, hstart⟩, Signed.add?_of_not_fits hfits]
  rfl

theorem csharp_inRange_of_stop (hstart : 0 < count → 0 ≤ start)
    (hstop : 0 < count → start + count ≤ 2147483647)
    : CSharp.inRange start count camera = covers start count camera := by
  unfold CSharp.inRange covers
  by_cases h : 0 < count
  . have hfits : Signed.Fits (start + count) := by
      have hlow := hstart h
      have hhigh := hstop h
      unfold Signed.Fits
      omega
    rw [Signed.wrap_of_fits hfits]
    simp [h]
  . simp [h]

theorem channelRange_isOk (hstop : 0 < count → start + count ≤ 2147483647)
    : ∃ range, channelRange start count = .ok range := by
  unfold channelRange
  split
  . exact ⟨_, rfl⟩
  . next h =>
    have hbound := hstop (by omega)
    have hfits : Signed.Fits (start + count) := by
      unfold Signed.Fits
      omega
    have hlast : Signed.Fits (start + count - 1) := by
      unfold Signed.Fits
      omega
    rw [Signed.add?_of_fits hfits]
    simp only [checked, bind, Except.bind]
    rw [Signed.sub?_of_fits hlast]
    exact ⟨_, rfl⟩

theorem Alike.enabledAt_eq (h : Alike t t') (index : Int)
    : t'.enabledAt index = t.enabledAt index := by
  unfold enabledAt
  rw [h.analogEnabled_eq]

theorem sameAnswer_ensureAnalogEnabled (h : Alike t t')
    (hfits : Signed.Fits (camera - t.analogStart))
    : SameAnswer
        (do
          t.ensureAnalogEnabled camera
          pure (camera, .Analog))
        (do
          CSharp.ensureAnalogEnabled t' camera
          pure (camera, .Analog)) := by
  unfold ensureAnalogEnabled CSharp.ensureAnalogEnabled
  rw [Signed.sub?_of_fits hfits, h.analogStart_eq, Signed.wrap_of_fits hfits]
  dsimp only
  rw [h.enabledAt_eq, h.ipParameterConfigRead_eq]
  simp only [checked, bind, Except.bind]
  cases t.ipParameterConfigRead && !t.enabledAt (camera - t.analogStart) with
  | true => rfl
  | false => rfl

theorem fits_sub_of_covers (h : t.InBounds) (hcamera : Signed.Fits camera)
    (hcovers : covers t.analogStart t.analogCount camera = true)
    : Signed.Fits (camera - t.analogStart) := by
  have hstart := h.analogStart_nonneg
  simp only [covers, decide_eq_true_eq] at hcovers
  unfold Signed.Fits at hcamera ⊢
  omega

theorem sameAnswer_of_alike (hbounds : t.InBounds) (h : Alike t t') (hcamera : Signed.Fits camera)
    (requestedType : ChannelType)
    : SameAnswer (t.resolve camera requestedType) (CSharp.resolve t' camera requestedType) := by
  have hanalog : t.isAnalog camera = .ok (covers t.analogStart t.analogCount camera) :=
    inRange_of_stop (fun _ => hbounds.analogStart_nonneg) hbounds.analogStop
  have hdigital : t.isDigital camera = .ok (covers t.digitalStart t.digitalCount camera) :=
    inRange_of_stop hbounds.digitalStart_nonneg hbounds.digitalStop
  have hanalog' : CSharp.isAnalog t' camera = covers t.analogStart t.analogCount camera := by
    unfold CSharp.isAnalog
    rw [h.analogStart_eq, h.analogCount_eq]
    exact csharp_inRange_of_stop (fun _ => hbounds.analogStart_nonneg) hbounds.analogStop
  have hdigital' : CSharp.isDigital t' camera = covers t.digitalStart t.digitalCount camera := by
    unfold CSharp.isDigital
    rw [h.digitalCount_eq]
    by_cases hcount : 0 < t.digitalCount
    . rw [h.digitalStart_eq hcount]
      exact csharp_inRange_of_stop hbounds.digitalStart_nonneg hbounds.digitalStop
    . simp [CSharp.inRange, covers, hcount]
  obtain ⟨analogRange, hanalogRange⟩ := channelRange_isOk hbounds.analogStop
  obtain ⟨digitalRange, hdigitalRange⟩ := channelRange_isOk hbounds.digitalStop
  unfold resolve CSharp.resolve
  rw [hanalog, hdigital, hanalog', hdigital', h.analogCount_eq, h.digitalCount_eq]
  simp only [bind, Except.bind]
  cases requestedType with
  | Auto =>
    dsimp only
    split
    . next hcovers =>
      exact sameAnswer_ensureAnalogEnabled h (fits_sub_of_covers hbounds hcamera hcovers)
    . split
      . rfl
      . rw [hanalogRange, hdigitalRange]
        rfl
  | Analog =>
    dsimp only
    split
    . rfl
    . split
      . rw [hanalogRange]
        rfl
      . next hcovers =>
        simp only [Bool.not_eq_true', Bool.not_eq_false] at hcovers
        exact sameAnswer_ensureAnalogEnabled h (fits_sub_of_covers hbounds hcamera hcovers)
  | Digital =>
    dsimp only
    split
    . rfl
    . split
      . rw [hdigitalRange]
        rfl
      . rfl
  | DigitalIndex =>
    dsimp only
    split
    . rfl
    . next hcount =>
      have hstart := hbounds.digitalStart_nonneg (by omega)
      have hstop := hbounds.digitalStop (by omega)
      split
      . have hlast : Signed.Fits (t.digitalCount - 1) := by
          unfold Signed.Fits
          omega
        rw [Signed.sub?_of_fits hlast]
        rfl
      . have hchannel : Signed.Fits (t.digitalStart + camera) := by
          unfold Signed.Fits
          omega
        rw [Signed.add?_of_fits hchannel, h.digitalStart_eq (by omega),
          Signed.wrap_of_fits hchannel]
        rfl

theorem digitalCount_eq_add (low high : UInt8)
    : low.toNat ||| high.toNat <<< 8 = low.toNat + 256 * high.toNat := by
  have hlow : low.toNat < 2 ^ 8 := low.toNat_lt
  rw [Nat.or_comm, ← Nat.shiftLeft_add_eq_or_of_lt hlow, Nat.shiftLeft_eq]
  omega

theorem toInt_eq (n : UInt32)
    : toInt n = if n.toNat ≤ 2147483647 then (n.toNat : Int) else (n.toNat : Int) - 4294967296 :=
  Signed.wrap_ofNat n.toNat_lt

theorem pos_iff_toNat (n : UInt32) : n > 0 ↔ 0 < n.toNat := UInt32.lt_iff_toNat_lt

theorem usable_iff (n : UInt32)
    : CSharp.usable n = true ↔ 0 < n.toNat ∧ n.toNat ≤ 2147483647 := by
  unfold CSharp.usable CSharp.intMaxValue
  simp [UInt32.lt_iff_toNat_lt, UInt32.le_iff_toNat_le]

theorem max_toInt (login : Nat) (n : UInt32)
    : (if n > 0 then max (login : Int) (toInt n) else login)
        =
      ((max login (if n.toNat ≤ 2147483647 then n.toNat else 0) : Nat) : Int) := by
  have hlt := n.toNat_lt
  rw [toInt_eq]
  by_cases hle : n.toNat ≤ 2147483647
  . simp only [pos_iff_toNat, if_pos hle]
    split <;> omega
  . simp only [pos_iff_toNat, if_neg hle]
    split <;> omega

theorem csharp_max_toInt (login : Nat) (n : UInt32)
    : (if CSharp.usable n then max (login : Int) (toInt n) else login)
        =
      ((max login (if n.toNat ≤ 2147483647 then n.toNat else 0) : Nat) : Int) := by
  rw [toInt_eq]
  by_cases hle : n.toNat ≤ 2147483647
  . simp only [usable_iff, if_pos hle]
    split <;> omega
  . simp only [usable_iff, if_neg hle]
    split <;> omega

section Read

variable (r : DeviceReport)

theorem read_analogStart
    : (read r).analogStart
        =
      if 0 < r.device.byChanNum.toNat ∧ r.device.byStartChan.toNat = 0 then
        1
      else
        (r.device.byStartChan.toNat : Int) := by
  unfold read
  cases r.ipConfig <;> rfl

theorem read_analogCount : (read r).analogCount = r.analogChannels := by
  unfold read DeviceReport.analogChannels DeviceReport.countOf
  cases r.ipConfig with
  | none => simp
  | some c => exact max_toInt _ _

theorem read_digitalCount : (read r).digitalCount = r.digitalChannels := by
  unfold read DeviceReport.digitalChannels DeviceReport.countOf
  dsimp only
  rw [digitalCount_eq_add]
  cases r.ipConfig with
  | none => simp
  | some c => exact max_toInt _ _

theorem read_digitalStart : (read r).digitalStart = Signed.wrap r.firstDigitalChannel := by
  have hbyte := r.device.byStartDChan.toNat_lt
  have hlogin : Signed.wrap r.device.byStartDChan.toNat = r.device.byStartDChan.toNat := by
    apply Signed.wrap_of_fits
    unfold Signed.Fits
    omega
  unfold read DeviceReport.firstDigitalChannel
  cases r.ipConfig with
  | none => exact hlogin.symm
  | some c =>
    simp only [readIpConfig, pos_iff_toNat, toInt]
    by_cases hzero : c.dwStartDChan.toNat = 0
    . rw [if_neg (by omega), if_pos hzero, hlogin]
    . rw [if_pos (by omega), if_neg hzero]

theorem csharp_read_analogStart : (CSharp.read r).analogStart = r.device.byStartChan.toNat := by
  unfold CSharp.read
  cases r.ipConfig <;> rfl

theorem csharp_read_analogCount : (CSharp.read r).analogCount = r.analogChannels := by
  unfold CSharp.read DeviceReport.analogChannels DeviceReport.countOf
  cases r.ipConfig with
  | none => simp
  | some c => exact csharp_max_toInt _ _

theorem csharp_read_digitalCount : (CSharp.read r).digitalCount = r.digitalChannels := by
  unfold CSharp.read DeviceReport.digitalChannels DeviceReport.countOf
  dsimp only
  rw [digitalCount_eq_add]
  cases r.ipConfig with
  | none => simp
  | some c => exact csharp_max_toInt _ _

theorem csharp_read_digitalStart
    : (CSharp.read r).digitalStart
        =
      if r.firstDigitalChannel ≤ 2147483647 then
        (r.firstDigitalChannel : Int)
      else
        r.device.byStartDChan.toNat := by
  have hbyte := r.device.byStartDChan.toNat_lt
  unfold CSharp.read DeviceReport.firstDigitalChannel
  cases r.ipConfig with
  | none =>
    dsimp only
    rw [if_pos (by omega)]
  | some c =>
    simp only [CSharp.readIpConfig, usable_iff, toInt_eq]
    by_cases hzero : c.dwStartDChan.toNat = 0
    . rw [if_neg (by omega), if_pos hzero, if_pos (by omega)]
    . rw [if_neg hzero]
      by_cases hle : c.dwStartDChan.toNat ≤ 2147483647
      . rw [if_pos (by omega), if_pos hle, if_pos hle]
      . rw [if_neg (by omega), if_neg hle]

theorem csharp_read_analogEnabled : (CSharp.read r).analogEnabled = (read r).analogEnabled := by
  unfold read CSharp.read
  cases r.ipConfig <;> rfl

theorem csharp_read_ipParameterConfigRead
    : (CSharp.read r).ipParameterConfigRead = (read r).ipParameterConfigRead := by
  unfold read CSharp.read
  cases r.ipConfig <;> rfl

end Read

theorem inBounds_of_plain (h : r.Plain) : (read r).InBounds := by
  obtain ⟨hstart, hanalog, hdigital⟩ := h
  unfold DeviceReport.intMax at hanalog hdigital
  have hfits : 0 < r.digitalChannels → Signed.wrap r.firstDigitalChannel = r.firstDigitalChannel := by
    intro hcount
    apply Signed.wrap_of_fits
    unfold Signed.Fits
    omega
  have hanalogStart : (read r).analogStart = r.device.byStartChan.toNat := by
    rw [read_analogStart, if_neg]
    rintro ⟨hcount, hzero⟩
    rcases hstart with hchan | hchan
    . simp [hchan] at hcount
    . exact hchan (UInt8.toNat_inj.mp hzero)
  refine ⟨?_, ?_, ?_, ?_⟩
  . rw [hanalogStart]
    omega
  . intro _
    rw [hanalogStart, read_analogCount]
    omega
  . intro hcount
    rw [read_digitalCount] at hcount
    rw [read_digitalStart, hfits (by omega)]
    omega
  . intro hcount
    rw [read_digitalCount] at hcount
    rw [read_digitalStart, read_digitalCount, hfits (by omega)]
    omega

theorem alike_of_plain (h : r.Plain) : Alike (read r) (CSharp.read r) := by
  obtain ⟨hstart, -, hdigital⟩ := h
  unfold DeviceReport.intMax at hdigital
  refine ⟨?_, ?_, ?_, ?_, csharp_read_analogEnabled r, csharp_read_ipParameterConfigRead r⟩
  . rw [csharp_read_analogStart, read_analogStart, if_neg]
    rintro ⟨hcount, hzero⟩
    rcases hstart with hchan | hchan
    . simp [hchan] at hcount
    . exact hchan (UInt8.toNat_inj.mp hzero)
  . rw [csharp_read_analogCount, read_analogCount]
  . rw [csharp_read_digitalCount, read_digitalCount]
  . intro hcount
    rw [read_digitalCount] at hcount
    have hfits : Signed.Fits r.firstDigitalChannel := by
      unfold Signed.Fits
      omega
    rw [csharp_read_digitalStart, read_digitalStart, if_pos (by omega), Signed.wrap_of_fits hfits]

theorem inRange_cases
    : inRange start count camera = .error .undefined
      ∨ ∃ inside, inRange start count camera = .ok inside := by
  unfold inRange
  split
  . cases Signed.add? start count with
    | none => exact .inl rfl
    | some stop => exact .inr ⟨_, rfl⟩
  . exact .inr ⟨_, rfl⟩

theorem ensureAnalogEnabled_cases (t : NvrChannelTopology) (camera : Int)
    : t.ensureAnalogEnabled camera = .error .undefined
      ∨ (∃ message,
        t.ensureAnalogEnabled camera = .error (.bridge ⟨422, "ANALOG_CHANNEL_DISABLED", message⟩))
      ∨ t.ensureAnalogEnabled camera = .ok () := by
  unfold ensureAnalogEnabled
  cases Signed.sub? camera t.analogStart with
  | none => exact .inl rfl
  | some index =>
    simp only [checked, bind, Except.bind]
    split
    . exact .inr (.inl ⟨_, rfl⟩)
    . exact .inr (.inr rfl)

theorem analogChannels_le (r : DeviceReport) : r.analogChannels ≤ 2147483647 := by
  have hbyte := r.device.byChanNum.toNat_lt
  unfold DeviceReport.analogChannels DeviceReport.countOf DeviceReport.intMax
  cases r.ipConfig with
  | none =>
    dsimp only
    omega
  | some c =>
    dsimp only
    split <;> omega

theorem firstDigitalChannel_lt (r : DeviceReport) : r.firstDigitalChannel < 4294967296 := by
  have hbyte := r.device.byStartDChan.toNat_lt
  unfold DeviceReport.firstDigitalChannel
  cases r.ipConfig with
  | none =>
    dsimp only
    omega
  | some c =>
    have hlt := c.dwStartDChan.toNat_lt
    dsimp only
    split <;> omega

theorem not_sameAnswer_of_startZero (hcount : 0 < r.device.byChanNum.toNat)
    (hstart : r.device.byStartChan.toNat = 0)
    : ¬ SameAnswer ((read r).resolve r.analogChannels .Analog)
        (CSharp.resolve (CSharp.read r) r.analogChannels .Analog) := by
  have hle := analogChannels_le r
  have hpos : 0 < r.analogChannels := Nat.lt_of_lt_of_le hcount (Nat.le_max_left _ _)
  have hfits : Signed.Fits r.analogChannels := by
    unfold Signed.Fits
    omega
  obtain ⟨message, hcsharp⟩ : ∃ message, CSharp.resolve (CSharp.read r) r.analogChannels .Analog
      = .error ⟨422, "ANALOG_CHANNEL_OUT_OF_RANGE", message⟩ := by
    have hanalog : CSharp.isAnalog (CSharp.read r) r.analogChannels = false := by
      unfold CSharp.isAnalog CSharp.inRange
      rw [csharp_read_analogStart, csharp_read_analogCount, hstart, Nat.cast_zero, Int.zero_add,
        Signed.wrap_of_fits hfits]
      simp
    unfold CSharp.resolve
    dsimp only
    rw [hanalog, csharp_read_analogCount, if_neg (by omega)]
    exact ⟨_, rfl⟩
  rw [hcsharp]
  unfold resolve
  have hanalog : (read r).isAnalog r.analogChannels = .error .undefined
      ∨ (read r).isAnalog r.analogChannels = .ok true := by
    have hone : (read r).analogStart = 1 := by rw [read_analogStart, if_pos ⟨hcount, hstart⟩]
    unfold isAnalog inRange
    rw [hone, read_analogCount, if_pos (by omega)]
    unfold Signed.add?
    split
    . right
      simp only [checked, bind, Except.bind, pure, Except.pure]
      congr 1
      rw [decide_eq_true_eq]
      omega
    . exact .inl rfl
  rcases hanalog with hanalog | hanalog
  . rw [hanalog]
    exact id
  . rw [hanalog]
    have hdigital : (read r).isDigital r.analogChannels = .error .undefined
        ∨ ∃ inside, (read r).isDigital r.analogChannels = .ok inside := inRange_cases
    rcases hdigital with hdigital | ⟨inside, hdigital⟩
    . rw [hdigital]
      exact id
    . rw [hdigital, read_analogCount]
      simp only [bind, Except.bind]
      rw [if_neg (by omega)]
      rcases ensureAnalogEnabled_cases (read r) r.analogChannels with h | ⟨disabled, h⟩ | h
      . rw [h]
        exact id
      . rw [h]
        have hcode : "ANALOG_CHANNEL_DISABLED" ≠ "ANALOG_CHANNEL_OUT_OF_RANGE" := by decide
        exact fun hsame => hcode hsame
      . rw [h]
        exact id

theorem resolve_of_analogOverflow (hcount : 0 < t.analogCount) (hstart : t.analogStart ≤ camera)
    (hstop : 2147483647 < t.analogStart + t.analogCount) (requestedType : ChannelType)
    : t.resolve camera requestedType = .error .undefined := by
  have hanalog : t.isAnalog camera = .error .undefined := inRange_of_overflow hcount hstart hstop
  unfold resolve
  rw [hanalog]
  rfl

theorem resolve_of_digitalOverflow (hcount : 0 < t.digitalCount) (hstart : t.digitalStart ≤ camera)
    (hstop : 2147483647 < t.digitalStart + t.digitalCount) (requestedType : ChannelType)
    : t.resolve camera requestedType = .error .undefined := by
  have hdigital : t.isDigital camera = .error .undefined := inRange_of_overflow hcount hstart hstop
  have hanalog : t.isAnalog camera = .error .undefined ∨ ∃ inside, t.isAnalog camera = .ok inside :=
    inRange_cases
  unfold resolve
  rw [hdigital]
  rcases hanalog with hanalog | ⟨inside, hanalog⟩
  . rw [hanalog]
    rfl
  . rw [hanalog]
    rfl

theorem not_sameAnswer_of_analogOverflow (hcount : 0 < t.analogCount)
    (hstart : t.analogStart ≤ camera) (hstop : 2147483647 < t.analogStart + t.analogCount)
    (requestedType : ChannelType) (answer : Except BridgeError (Int × ResolvedChannelType))
    : ¬ SameAnswer (t.resolve camera requestedType) answer := by
  rw [resolve_of_analogOverflow hcount hstart hstop]
  exact id

theorem not_sameAnswer_of_digitalOverflow (hcount : 0 < t.digitalCount)
    (hstart : t.digitalStart ≤ camera) (hstop : 2147483647 < t.digitalStart + t.digitalCount)
    (requestedType : ChannelType) (answer : Except BridgeError (Int × ResolvedChannelType))
    : ¬ SameAnswer (t.resolve camera requestedType) answer := by
  rw [resolve_of_digitalOverflow hcount hstart hstop]
  exact id

theorem not_sameAnswer_of_negativeStart (hcount : 0 < r.digitalChannels)
    (hstart : 2147483647 < r.firstDigitalChannel)
    : ¬ SameAnswer ((read r).resolve 0 .DigitalIndex)
        (CSharp.resolve (CSharp.read r) 0 .DigitalIndex) := by
  have hcsharp : CSharp.resolve (CSharp.read r) 0 .DigitalIndex
      = .ok (r.device.byStartDChan.toNat, .Digital) := by
    have hbyte := r.device.byStartDChan.toNat_lt
    have hfits : Signed.Fits r.device.byStartDChan.toNat := by
      unfold Signed.Fits
      omega
    unfold CSharp.resolve
    dsimp only
    rw [csharp_read_digitalCount, if_neg (by omega), if_neg (by omega), csharp_read_digitalStart,
      if_neg (by omega), Int.add_zero, Signed.wrap_of_fits hfits]
    rfl
  have hnegative : (read r).digitalStart < 0 := by
    have hlt := firstDigitalChannel_lt r
    rw [read_digitalStart, Signed.wrap_ofNat hlt, if_neg (by omega)]
    omega
  have hchannel : Signed.add? (read r).digitalStart 0 = some (read r).digitalStart := by
    have hfits : Signed.Fits ((read r).digitalStart + 0) := by
      rw [Int.add_zero, read_digitalStart]
      exact Signed.fits_wrap _
    rw [Signed.add?_of_fits hfits, Int.add_zero]
  have hanalog : (read r).isAnalog 0 = .error .undefined
      ∨ ∃ inside, (read r).isAnalog 0 = .ok inside := inRange_cases
  have hdigital : (read r).isDigital 0 = .error .undefined
      ∨ ∃ inside, (read r).isDigital 0 = .ok inside := inRange_cases
  rw [hcsharp]
  unfold resolve
  rcases hanalog with hanalog | ⟨analog, hanalog⟩
  . rw [hanalog]
    exact id
  . rcases hdigital with hdigital | ⟨digital, hdigital⟩
    . rw [hanalog, hdigital]
      exact id
    . rw [hanalog, hdigital, read_digitalCount, hchannel]
      simp only [bind, Except.bind]
      rw [if_neg (by omega), if_neg (by omega)]
      intro hsame
      have hstart : (read r).digitalStart = r.device.byStartDChan.toNat := congrArg Prod.fst hsame
      omega

theorem firstDigitalChannel_le_of_answers
    (h : ∀ camera requestedType, Signed.Fits camera
      → SameAnswer ((read r).resolve camera requestedType)
        (CSharp.resolve (CSharp.read r) camera requestedType))
    (hcount : 0 < r.digitalChannels) : r.firstDigitalChannel ≤ 2147483647 := by
  by_contra hstart
  exact not_sameAnswer_of_negativeStart hcount (by omega) (h 0 .DigitalIndex (by decide))

/--
The two ports answer every request for a device alike exactly when its report is plain.
-/
theorem sameAnswer_iff_plain (r : DeviceReport)
    : (∀ camera requestedType, Signed.Fits camera
        → SameAnswer ((read r).resolve camera requestedType)
          (CSharp.resolve (CSharp.read r) camera requestedType))
        ↔
      r.Plain := by
  constructor
  . intro h
    have hle := analogChannels_le r
    refine ⟨?_, ?_, ?_⟩
    . by_contra hnot
      rw [not_or, not_not] at hnot
      have hcount : 0 < r.device.byChanNum.toNat := by
        rw [Nat.pos_iff_ne_zero]
        exact fun hzero => hnot.1 (UInt8.toNat_inj.mp hzero)
      apply not_sameAnswer_of_startZero hcount (by rw [hnot.2]; rfl)
      apply h
      unfold Signed.Fits
      omega
    . by_contra hstop
      unfold DeviceReport.intMax at hstop
      have hbyte := r.device.byStartChan.toNat_lt
      have hstart : (read r).analogStart = r.device.byStartChan.toNat := by
        rw [read_analogStart, if_neg (by omega)]
      apply not_sameAnswer_of_analogOverflow _ _ _ _ _
        (h 2147483647 .Analog (by decide))
      . rw [read_analogCount]
        omega
      . rw [hstart]
        omega
      . rw [hstart, read_analogCount]
        omega
    . by_contra hstop
      unfold DeviceReport.intMax at hstop
      have hfirst := firstDigitalChannel_le_of_answers h (by omega)
      have hfits : Signed.Fits r.firstDigitalChannel := by
        unfold Signed.Fits
        omega
      have hstart : (read r).digitalStart = r.firstDigitalChannel := by
        rw [read_digitalStart, Signed.wrap_of_fits hfits]
      apply not_sameAnswer_of_digitalOverflow _ _ _ _ _
        (h 2147483647 .Digital (by decide))
      . rw [read_digitalCount]
        omega
      . rw [hstart]
        omega
      . rw [hstart, read_digitalCount]
        omega
  . intro h camera requestedType hcamera
    exact sameAnswer_of_alike (inBounds_of_plain h) (alike_of_plain h) hcamera requestedType

def zeroBasedReport : DeviceReport where
  device :=
    { byChanNum := 4, byStartChan := 0, byIPChanNum := 0, byStartDChan := 0, byHighDChanNum := 0 }
  ipConfig := none

/--
The C++ bridge plays the fourth channel of the device, the C# bridge says that it is out of range.
-/
theorem ports_differ_on_zeroBasedReport
    : (read zeroBasedReport).resolve 4 .Analog = .ok (4, .Analog)
      ∧ CSharp.resolve (CSharp.read zeroBasedReport) 4 .Analog
        = .error ⟨422, "ANALOG_CHANNEL_OUT_OF_RANGE",
          "camera=4 is not in the NVR analog channel range none"⟩
      ∧ ¬ ∀ camera requestedType, Signed.Fits camera
        → SameAnswer ((read zeroBasedReport).resolve camera requestedType)
          (CSharp.resolve (CSharp.read zeroBasedReport) camera requestedType) := by
  refine ⟨by decide +kernel, by decide +kernel, ?_⟩
  intro h
  exact absurd (h 4 .Analog (by decide)) (by decide +kernel)

end NvrChannelTopology
end HikBridge
