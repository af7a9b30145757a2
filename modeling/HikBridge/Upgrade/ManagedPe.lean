import HikBridge.Basic

/-!
This module contains `managed_pe`, which tells a .NET executable by its headers, and what the PE format
says of the same bytes.
-/

namespace HikBridge.Upgrade

/--
The bytes of a file as they lie in memory, where others follow them.
-/
structure Image where
  size : Nat
  memory : Nat → UInt8

namespace Image

def window (image : Image) (offset size : Nat) : Bytes :=
  (List.range size).map fun i => image.memory (offset + i)

-- `at`
def atOffset (image : Image) (offset size : Nat) : Except String Bytes :=
  if offset ≤ image.size ∧ size ≤ image.size - offset then
    .ok (image.window offset size)
  else
    .error "Invalid PE executable"

end Image

def littleEndian (bytes : Bytes) : Nat := bytes.foldr (fun byte value => byte.toNat + 256 * value) 0

def require' (test : Bool) (message : String) : Except String Unit :=
  if test then .ok () else .error message

def comDescriptor (image : Image) (optional : Nat) : Except String Bool := do
  let magic := littleEndian (← image.atOffset optional 2)
  require' (magic = 0x10B || magic = 0x20B) "Unsupported PE format"
  let directory := optional + (if magic = 0x10B then 96 else 112) + 14 * 8
  let entry ← image.atOffset directory 8
  .ok (littleEndian (entry.take 4) ≠ 0)

/--
`e_lfanew` and the size of the signature are added with 32 bits.
-/
def managedPe (image : Image) : Except String Bool := do
  require' (littleEndian (← image.atOffset 0 2) = 0x5A4D) "Not a Windows executable"
  let pe := littleEndian (← image.atOffset 0x3C 4)
  require' (littleEndian (← image.atOffset pe 4) = 0x4550) "Invalid PE signature"
  comDescriptor image ((pe + 4) % 2 ^ 32 + 20)

section Format

variable {image other : Image} {pe optional offset size : Nat} {wide : Bool}

namespace Image

def Within (image : Image) (offset size : Nat) : Prop := offset + size ≤ image.size

def value (image : Image) (offset size : Nat) : Nat := littleEndian (image.window offset size)

end Image

structure Signed (image : Image) (pe : Nat) : Prop where
  dosHeader : image.Within 0 2
  dosSignature : image.value 0 2 = 0x5A4D
  lfanew : image.Within 0x3C 4
  lfanew_eq : image.value 0x3C 4 = pe
  header : image.Within pe 4
  signature : image.value pe 4 = 0x4550

def directories (optional : Nat) (wide : Bool) : Nat := optional + if wide then 112 else 96

structure HeaderAt (image : Image) (optional : Nat) (wide : Bool) : Prop where
  header : image.Within optional 2
  magic : image.value optional 2 = if wide then 0x20B else 0x10B
  entry : image.Within (directories optional wide + 14 * 8) 8

def count (image : Image) (optional : Nat) (wide : Bool) : Nat :=
  image.value (directories optional wide - 4) 4

def address (image : Image) (optional : Nat) (wide : Bool) : Nat :=
  image.value (directories optional wide + 14 * 8) 4

def Readable (image : Image) : Prop :=
  ∃ pe wide, Signed image pe ∧ HeaderAt image (pe + 24) wide

/--
A .NET executable: it declares more than 14 data directories, and the one of the COM descriptor is set.
-/
def Managed (image : Image) : Prop :=
  ∃ pe wide, Signed image pe ∧ HeaderAt image (pe + 24) wide ∧ 14 < count image (pe + 24) wide
    ∧ address image (pe + 24) wide ≠ 0

/--
The verdict is the one of the format, and there is none only where a field is missing or wrong.
-/
def Agrees (image : Image) (verdict : Except String Bool) : Prop :=
  match verdict with
  | .error _ => ¬Readable image
  | .ok managed => managed = true ↔ Managed image

structure SameBytes (image other : Image) : Prop where
  size : other.size = image.size
  memory : ∀ i < image.size, other.memory i = image.memory i

def Verdict (image : Image) (optional : Nat) : Prop :=
  (∀ wide, HeaderAt image optional wide → (address image optional wide ≠ 0 ↔ Managed image))
    ∧ ((∀ wide, ¬HeaderAt image optional wide) → ¬Readable image)

/--
The fields at `found`, taken for an optional header, agree with the optional header at `declared`: where
they are one, the entry for the COM descriptor is set there just if it is declared and set here.
-/
structure SameDescriptor (image : Image) (found declared : Nat) : Prop where
  set_iff : ∀ wide, HeaderAt image found wide → (address image found wide ≠ 0 ↔
    ∃ wide', HeaderAt image declared wide' ∧ 14 < count image declared wide'
      ∧ address image declared wide' ≠ 0)
  missing : (∀ wide, ¬HeaderAt image found wide) → ∀ wide, ¬HeaderAt image declared wide

/--
An entry for the COM descriptor is set only where it is declared. With an `e_lfanew` that wraps around,
which takes a file of 4 GiB, the fields at the wrong place have to agree with the header.
-/
def DescriptorDeclared (image : Image) : Prop :=
  ∀ pe, Signed image pe →
    (pe + 4 < 2 ^ 32 → ∀ wide, HeaderAt image (pe + 24) wide → address image (pe + 24) wide ≠ 0 →
      14 < count image (pe + 24) wide)
    ∧ (2 ^ 32 ≤ pe + 4 → SameDescriptor image (pe + 4 - 2 ^ 32 + 20) (pe + 24))

theorem littleEndian_lt (bytes : Bytes) : littleEndian bytes < 256 ^ bytes.length := by
  induction bytes with
  | nil => decide
  | cons byte bytes ih =>
    have hbyte := byte.toNat_lt
    change byte.toNat + 256 * littleEndian bytes < 256 ^ (bytes.length + 1)
    rw [Nat.pow_succ]
    omega

theorem value_lt : image.value offset size < 256 ^ size := by
  have hlt := littleEndian_lt (image.window offset size)
  have hlength : (image.window offset size).length = size := by
    simp [Image.window]
  rw [hlength] at hlt
  exact hlt

theorem take_window : (image.window offset 8).take 4 = image.window offset 4 := rfl

theorem atOffset_of_within (h : image.Within offset size)
    : image.atOffset offset size = .ok (image.window offset size) := by
  unfold Image.Within at h
  exact if_pos ⟨by omega, by omega⟩

theorem atOffset_of_not_within (h : ¬image.Within offset size)
    : image.atOffset offset size = .error "Invalid PE executable" := by
  unfold Image.Within at h
  apply if_neg
  omega

theorem atOffset_eq (h : SameBytes image other) (offset size : Nat)
    : other.atOffset offset size = image.atOffset offset size := by
  unfold Image.atOffset
  rw [h.size]
  split
  . congr 1
    unfold Image.window
    apply List.map_congr_left
    intro i hi
    rw [List.mem_range] at hi
    exact h.memory _ (by omega)
  . rfl

theorem HeaderAt.unique {wide' : Bool} (h : HeaderAt image optional wide)
    (h' : HeaderAt image optional wide') : wide = wide' := by
  have hmagic := h.magic.symm.trans h'.magic
  cases wide
  . cases wide'
    . rfl
    . contradiction
  . cases wide'
    . contradiction
    . rfl

theorem comDescriptor_ok (h : HeaderAt image optional wide)
    : comDescriptor image optional = .ok (decide (address image optional wide ≠ 0)) := by
  have hentry := atOffset_of_within h.entry
  have hmagic := h.magic
  unfold Image.value at hmagic
  unfold directories at hentry
  unfold comDescriptor address Image.value directories
  rw [atOffset_of_within h.header]
  simp only [bind, Except.bind, hmagic]
  cases wide
  . simp only [Bool.false_eq_true, if_false] at hentry ⊢
    simp only [require', decide_true, Bool.true_or, if_true, hentry, take_window]
    rfl
  . simp only [if_true] at hentry ⊢
    have hnarrow : ¬(0x20B : Nat) = 0x10B := by decide
    simp only [require', hnarrow, decide_true, Bool.or_true, if_true, if_false, hentry, take_window]
    rfl

theorem comDescriptor_error (h : ∀ wide, ¬HeaderAt image optional wide)
    : ∃ message, comDescriptor image optional = .error message := by
  unfold comDescriptor
  by_cases hheader : image.Within optional 2
  . rw [atOffset_of_within hheader]
    simp only [bind, Except.bind]
    have hentry : ∀ wide, image.value optional 2 = (if wide then 0x20B else 0x10B) →
        image.atOffset (directories optional wide + 14 * 8) 8 = .error "Invalid PE executable" := by
      intro wide hmagic
      apply atOffset_of_not_within
      exact fun hwithin => h wide ⟨hheader, hmagic, hwithin⟩
    unfold Image.value directories at hentry
    by_cases hnarrow : littleEndian (image.window optional 2) = 0x10B
    . have hmissing := hentry false hnarrow
      simp only [Bool.false_eq_true, if_false] at hmissing
      simp [require', hnarrow, hmissing]
    . by_cases hwide : littleEndian (image.window optional 2) = 0x20B
      . have hmissing := hentry true hwide
        simp only [if_true] at hmissing
        simp [require', hwide, hmissing]
      . simp [require', hnarrow, hwide]
  . rw [atOffset_of_not_within hheader]
    exact ⟨_, rfl⟩

theorem managedPe_signed (h : Signed image pe)
    : managedPe image = comDescriptor image ((pe + 4) % 2 ^ 32 + 20) := by
  have hdos := h.dosSignature
  have hlfanew := h.lfanew_eq
  have hsignature := h.signature
  unfold Image.value at hdos hlfanew hsignature
  unfold managedPe
  rw [atOffset_of_within h.dosHeader, atOffset_of_within h.lfanew]
  simp only [bind, Except.bind, hdos, hlfanew, atOffset_of_within h.header, hsignature, require',
    decide_true, if_true]

theorem managedPe_not_signed (h : ∀ pe, ¬Signed image pe)
    : ∃ message, managedPe image = .error message := by
  unfold managedPe
  by_cases hdosHeader : image.Within 0 2
  . rw [atOffset_of_within hdosHeader]
    by_cases hdos : image.value 0 2 = 0x5A4D
    . by_cases hlfanew : image.Within 0x3C 4
      . rw [atOffset_of_within hlfanew]
        by_cases hheader : image.Within (image.value 0x3C 4) 4
        . have hsignature : image.value (image.value 0x3C 4) 4 ≠ 0x4550 := by
            intro hsignature
            exact h _ ⟨hdosHeader, hdos, hlfanew, rfl, hheader, hsignature⟩
          have hread := atOffset_of_within hheader
          unfold Image.value at hdos hsignature hread
          simp [bind, Except.bind, require', hdos, hread, hsignature]
        . have hread := atOffset_of_not_within hheader
          unfold Image.value at hdos hread
          simp [bind, Except.bind, require', hdos, hread]
      . rw [atOffset_of_not_within hlfanew]
        unfold Image.value at hdos
        simp [bind, Except.bind, require', hdos]
    . unfold Image.value at hdos
      simp [bind, Except.bind, require', hdos]
  . rw [atOffset_of_not_within hdosHeader]
    exact ⟨_, rfl⟩

theorem Signed.unique {pe' : Nat} (h : Signed image pe) (h' : Signed image pe') : pe = pe' :=
  h.lfanew_eq.symm.trans h'.lfanew_eq

theorem Signed.managed_iff_exists (h : Signed image pe)
    : Managed image ↔ ∃ wide, HeaderAt image (pe + 24) wide ∧ 14 < count image (pe + 24) wide
        ∧ address image (pe + 24) wide ≠ 0 := by
  constructor
  . rintro ⟨pe', wide, hsigned, hheader, hdescriptor⟩
    obtain rfl := h.unique hsigned
    exact ⟨wide, hheader, hdescriptor⟩
  . rintro ⟨wide, hheader, hdescriptor⟩
    exact ⟨pe, wide, h, hheader, hdescriptor⟩

theorem Signed.not_readable_iff (h : Signed image pe)
    : ¬Readable image ↔ ∀ wide, ¬HeaderAt image (pe + 24) wide := by
  constructor
  . intro hreadable wide hheader
    exact hreadable ⟨pe, wide, h, hheader⟩
  . rintro hmissing ⟨pe', wide, hsigned, hheader⟩
    obtain rfl := h.unique hsigned
    exact hmissing wide hheader

theorem Signed.managed_iff (h : Signed image pe) (hheader : HeaderAt image (pe + 24) wide)
    : Managed image ↔ 14 < count image (pe + 24) wide ∧ address image (pe + 24) wide ≠ 0 := by
  rw [h.managed_iff_exists]
  constructor
  . rintro ⟨wide', hheader', hcount, haddress⟩
    obtain rfl := hheader.unique hheader'
    exact ⟨hcount, haddress⟩
  . rintro ⟨hcount, haddress⟩
    exact ⟨wide, hheader, hcount, haddress⟩

theorem agrees_comDescriptor_iff (image : Image) (optional : Nat)
    : Agrees image (comDescriptor image optional) ↔ Verdict image optional := by
  unfold Verdict
  by_cases hheader : ∃ wide, HeaderAt image optional wide
  . obtain ⟨wide, hheader⟩ := hheader
    rw [comDescriptor_ok hheader]
    unfold Agrees
    dsimp only
    rw [decide_eq_true_iff]
    constructor
    . intro hagrees
      refine ⟨fun wide' hheader' => ?_, fun hmissing => absurd hheader (hmissing wide)⟩
      obtain rfl := hheader.unique hheader'
      exact hagrees
    . intro hverdict
      exact hverdict.1 wide hheader
  . rw [not_exists] at hheader
    obtain ⟨message, herror⟩ := comDescriptor_error hheader
    rw [herror]
    constructor
    . intro hagrees
      exact ⟨fun wide hwide => absurd hwide (hheader wide), fun _ => hagrees⟩
    . intro hverdict
      exact hverdict.2 hheader

/--
What `managed_pe` does not look at is how many data directories there are.
-/
theorem Signed.verdict_iff (h : Signed image pe)
    : Verdict image (pe + 24)
        ↔
      ∀ wide, HeaderAt image (pe + 24) wide → address image (pe + 24) wide ≠ 0 →
        14 < count image (pe + 24) wide := by
  constructor
  . intro hverdict wide hheader haddress
    have hmanaged := (hverdict.1 wide hheader).mp haddress
    exact ((h.managed_iff hheader).mp hmanaged).1
  . intro hdeclared
    refine ⟨fun wide hheader => ?_, ?_⟩
    . rw [h.managed_iff hheader]
      exact ⟨fun haddress => ⟨hdeclared wide hheader haddress, haddress⟩, And.right⟩
    . exact h.not_readable_iff.mpr

theorem Signed.verdict_iff_sameDescriptor (h : Signed image pe) (found : Nat)
    : Verdict image found ↔ SameDescriptor image found (pe + 24) := by
  unfold Verdict
  rw [h.managed_iff_exists, h.not_readable_iff]
  constructor
  . rintro ⟨hset, hmissing⟩
    exact ⟨hset, hmissing⟩
  . rintro ⟨hset, hmissing⟩
    exact ⟨hset, hmissing⟩

theorem agrees_managedPe_iff (image : Image) : Agrees image (managedPe image) ↔ DescriptorDeclared image := by
  unfold DescriptorDeclared
  by_cases hsigned : ∃ pe, Signed image pe
  . obtain ⟨pe, h⟩ := hsigned
    have hlt : pe < 256 ^ 4 := by
      rw [← h.lfanew_eq]
      exact value_lt
    rw [managedPe_signed h]
    by_cases hwraps : pe + 4 < 2 ^ 32
    . rw [Nat.mod_eq_of_lt hwraps, Nat.add_assoc, agrees_comDescriptor_iff, h.verdict_iff]
      constructor
      . intro hdeclared pe' hsigned'
        obtain rfl := h.unique hsigned'
        exact ⟨fun _ => hdeclared, by omega⟩
      . intro hdeclared
        exact (hdeclared pe h).1 hwraps
    . have hmod : (pe + 4) % 2 ^ 32 = pe + 4 - 2 ^ 32 := by omega
      rw [hmod, agrees_comDescriptor_iff, h.verdict_iff_sameDescriptor]
      constructor
      . intro hsame pe' hsigned'
        obtain rfl := h.unique hsigned'
        exact ⟨by omega, fun _ => hsame⟩
      . intro hdeclared
        exact (hdeclared pe h).2 (by omega)
  . rw [not_exists] at hsigned
    obtain ⟨message, herror⟩ := managedPe_not_signed hsigned
    rw [herror]
    constructor
    . intro _ pe h
      exact absurd h (hsigned pe)
    . rintro _ ⟨pe, wide, h, _⟩
      exact hsigned pe h

theorem managedPe_eq (h : SameBytes image other) : managedPe other = managedPe image := by
  unfold managedPe comDescriptor
  simp only [atOffset_eq h]

/--
The verdict of `managed_pe` is that of the format exactly where a set entry for the COM descriptor is
also declared, and it depends on the bytes of the file alone.
-/
theorem managedPe_format (image : Image)
    : (Agrees image (managedPe image) ↔ DescriptorDeclared image)
      ∧ ∀ other, SameBytes image other → managedPe other = managedPe image :=
  ⟨agrees_managedPe_iff image, fun _ => managedPe_eq⟩

def twoDirectories : Image where
  size := 0x200
  memory i :=
    if i = 0 then 0x4D else if i = 1 then 0x5A
    else if i = 0x3C then 0x40
    else if i = 0x40 then 0x50 else if i = 0x41 then 0x45
    else if i = 0x58 then 0x0B else if i = 0x59 then 0x01
    else if i = 0xB4 then 2
    else if i = 0x128 then 1
    else 0

theorem managedPe_twoDirectories : managedPe twoDirectories = .ok true ∧ ¬Managed twoDirectories := by
  refine ⟨rfl, ?_⟩
  rintro ⟨pe, wide, hsigned, hheader, hcount, -⟩
  obtain rfl : pe = 0x40 := hsigned.lfanew_eq.symm
  cases wide
  . exact absurd hcount (by decide)
  . exact absurd hheader.magic (by decide)

end Format

end HikBridge.Upgrade
