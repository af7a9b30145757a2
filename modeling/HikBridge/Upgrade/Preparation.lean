import HikBridge.Upgrade.Attempt

/-!
This module contains what `upgrade::execute` does before its `try` block: nothing is changed but the copy of
the new package beside the installation.
-/

namespace HikBridge.Upgrade

variable {J : Machine → Prop} {m : Machine} {name : String} {σ : Place → Option Tree} {φ : Files}
  {ρ : Registry} {s : Snapshot}

section Keeps

variable (hadvance : ∀ m r, J m → J (m.advance r))

include hadvance

theorem keeps_acquireLock : Program.Keeps J acquireLock := by
  apply Program.keeps_bind (keeps_call hadvance)
  intro _
  apply Program.keeps_bind (keeps_require hadvance)
  intro _
  apply Program.keeps_bind (keeps_require hadvance)
  intro _
  apply Program.keeps_pure

theorem keeps_checkPackage : Program.Keeps J checkPackage := by
  apply Program.keeps_bind (keeps_call hadvance)
  intro _
  apply Program.keeps_bind (keeps_require hadvance)
  intro _
  apply Program.keeps_bind (keeps_acquireLock hadvance)
  intro _
  iterate 5
    apply Program.keeps_bind (keeps_require hadvance)
    intro _
  apply Program.keeps_bind (keeps_call hadvance)
  intro _
  apply Program.keeps_pure

theorem keeps_checkTask : Program.Keeps J checkTask := by
  apply Program.keeps_bind (keeps_require hadvance)
  intro _
  apply Program.keeps_bind (keeps_require hadvance)
  intro _
  apply Program.keeps_pure

theorem keeps_checkInstallation : Program.Keeps J checkInstallation := by
  apply Program.keeps_bind (keeps_call hadvance)
  intro _
  apply Program.keeps_bind (keeps_require hadvance)
  intro _
  iterate 2
    apply Program.keeps_bind (keeps_checkTask hadvance)
    intro _
  iterate 3
    apply Program.keeps_bind (keeps_say hadvance)
    intro _
  apply Program.keeps_bind (keeps_require hadvance)
  intro _
  apply Program.keeps_bind (keeps_require hadvance)
  intro _
  apply Program.keeps_pure

theorem keeps_existsAt {place : Place} : Program.Keeps J (existsAt place) := by
  apply Program.keeps_bind (keeps_call hadvance)
  intro _
  apply Program.keeps_bind Program.keeps_inspect
  intro _
  apply Program.keeps_pure

theorem keeps_existsAny (places : List Place) : Program.Keeps J (existsAny places) := by
  induction places with
  | nil => apply Program.keeps_pure
  | cons place places ih =>
    apply Program.keeps_bind (keeps_existsAt hadvance)
    intro found
    exact Program.keeps_ite Program.keeps_pure ih

end Keeps

structure Staging (J : Machine → Prop) : Prop where
  advance : ∀ m r, J m → J (m.advance r)
  staged : ∀ m tree, J m → J (m.setPlace .staged tree)
  compared : ∀ m c, J m → J (m.compared c)
  renew : ∀ m, J m → J m.renew

section Copy

variable (hJ : Staging J)

include hJ

theorem keeps_copyEntry (file : String × Entry) : Program.Keeps J (copyEntry file) := by
  apply Program.keeps_bind (keeps_require hJ.advance)
  intro _
  cases file.2 with
  | directory =>
    apply Program.keeps_bind (keeps_call hJ.advance)
    intro _
    exact Program.keeps_update fun m => hJ.staged m _
  | file data =>
    apply Program.keeps_bind (keeps_require hJ.advance)
    intro _
    apply Program.keeps_bind (keeps_call hJ.advance)
    intro r
    apply Program.keeps_bind (Program.keeps_update fun m => hJ.staged m _)
    intro _
    iterate 2
      apply Program.keeps_bind (keeps_call hJ.advance)
      intro _
    apply Program.keeps_bind (keeps_observe hJ.advance)
    intro r
    apply Program.keeps_bind (Program.keeps_update fun m => hJ.compared m _)
    intro _
    apply Program.keeps_ite
    . apply Program.keeps_pure
    . apply Program.keeps_raise

theorem keeps_copyEntries (files : Files) : Program.Keeps J (copyEntries files) := by
  induction files with
  | nil => apply Program.keeps_pure
  | cons file files ih =>
    apply Program.keeps_bind (keeps_copyEntry hJ file)
    intro _
    exact ih

theorem keeps_copyAll : Program.Keeps J copyAll := by
  apply Program.keeps_bind (keeps_existsAt hJ.advance)
  intro found
  apply Program.keeps_ite Program.keeps_raise
  apply Program.keeps_bind (keeps_call hJ.advance)
  intro _
  apply Program.keeps_bind (Program.keeps_update fun m => hJ.staged m _)
  intro _
  apply Program.keeps_bind Program.keeps_inspect
  intro now
  apply Program.keeps_bind (keeps_copyEntries hJ now.source)
  intro _
  exact Program.keeps_update hJ.renew

theorem keeps_stage : Program.Keeps J stage := by
  apply Program.keeps_bind (keeps_existsAny hJ.advance _)
  intro taken
  apply Program.keeps_ite Program.keeps_raise
  apply Program.keeps_bind (keeps_copyAll hJ)
  intro _
  apply Program.keeps_bind (keeps_require hJ.advance)
  intro _
  apply Program.keeps_bind (keeps_require hJ.advance)
  intro _
  apply Program.keeps_bind (keeps_say hJ.advance)
  intro _
  exact keeps_say hJ.advance

end Copy

theorem keeps_prepare (check : Bool) (hJ : Observed J) (hstaging : Staging J)
    : Program.Keeps J (prepare check) := by
  apply Program.keeps_bind
  . apply Program.keeps_bind (keeps_checkPackage hJ.advance)
    intro _
    apply Program.keeps_bind (keeps_discover hJ)
    intro old
    apply Program.keeps_bind (keeps_checkInstallation hJ.advance)
    intro _
    apply Program.keeps_pure
  . intro old
    apply Program.keeps_ite
    . apply Program.keeps_bind (keeps_say hJ.advance)
      intro _
      apply Program.keeps_pure
    . apply Program.keeps_bind (keeps_stage hstaging)
      intro _
      apply Program.keeps_pure

section Staged

theorem Machine.places_advance {place : Place} (h : place ≠ .target) (r : Reply)
    : (m.advance r).places place = m.places place := by
  have hwritten : ∀ (m : Machine) package ws, (m.written package ws).places place = m.places place := by
    intro m package ws
    unfold Machine.written
    split
    . rfl
    . cases package <;> simp [Machine.setPlace, h]
  have hserve : ∀ (m : Machine) package, (m.serve package r).places place = m.places place := by
    intro m package
    unfold Machine.serve
    split
    . apply hwritten
    . rfl
  rw [Machine.advance, hserve, hserve]

-- The copy of the new package, as far as it has come.
def Staged (files : Files) (m : Machine) : Prop := m.places .staged = some ⟨.New, files⟩

theorem Staged.advance {files : Files} (m : Machine) (r : Reply) (h : Staged files m)
    : Staged files (m.advance r) := by
  unfold Staged
  rw [Machine.places_advance (by decide)]
  exact h

theorem Staged.add {files : Files} (h : Staged files m) (file : String × Entry)
    : Staged (files ++ [file]) (m.setPlace .staged
        ((m.places .staged).map fun tree => { tree with files := tree.files ++ [file] })) := by
  unfold Staged at *
  simp [Machine.setPlace, h]

def Copied (files : Files) (m : Machine) : Prop :=
  ∃ copies, Staged copies m ∧ ((∀ c ∈ m.comparisons, c.Reliable) → copies = files)

theorem comparisons_advance (m : Machine) (r : Reply) : (m.advance r).comparisons = m.comparisons := by
  have hwritten : ∀ (m : Machine) package ws, (m.written package ws).comparisons = m.comparisons := by
    intro m package ws
    unfold Machine.written
    split
    . rfl
    . cases package <;> rfl
  have hserve : ∀ (m : Machine) package, (m.serve package r).comparisons = m.comparisons := by
    intro m package
    unfold Machine.serve
    split
    . apply hwritten
    . rfl
  rw [Machine.advance, hserve, hserve]

theorem Copied.advance {files : Files} (m : Machine) (r : Reply) (h : Copied files m)
    : Copied files (m.advance r) := by
  obtain ⟨copies, hstaged, hcopies⟩ := h
  refine ⟨copies, hstaged.advance m r, ?_⟩
  rw [comparisons_advance]
  exact hcopies

-- A file has been copied, but is not compared yet.
def Added (files : Files) (path : String) (copy : Bytes) (m : Machine) : Prop :=
  ∃ copies, Staged (copies ++ [(path, .file copy)]) m ∧
    ((∀ c ∈ m.comparisons, c.Reliable) → copies = files)

theorem Added.advance {files : Files} {path : String} {copy : Bytes} (m : Machine) (r : Reply)
    (h : Added files path copy m) : Added files path copy (m.advance r) := by
  obtain ⟨copies, hstaged, hcopies⟩ := h
  refine ⟨copies, hstaged.advance m r, ?_⟩
  rw [comparisons_advance]
  exact hcopies

theorem Added.compared {files : Files} {path : String} {c : FileComparison} (h : Added files path c.copy m)
    (hequal : equalFile c.comparison c.source c.copy = true)
    : Copied (files ++ [(path, .file c.source)]) (m.compared c) := by
  obtain ⟨copies, hstaged, hcopies⟩ := h
  refine ⟨_, hstaged, ?_⟩
  intro hreliable
  have hc : c.Reliable := hreliable c (by simp [Machine.compared])
  have hbefore : ∀ c' ∈ m.comparisons, c'.Reliable := by
    intro c' hc'
    exact hreliable c' (by simp [Machine.compared, hc'])
  rw [hcopies hbefore, (c.sound_of_reliable hc hequal).equal]

theorem returns_copyEntry {files : Files} {file : String × Entry}
    : Returns (Copied files) (copyEntry file) fun _ => Copied (files ++ [file]) := by
  apply returns_bind (Keeps.returns (keeps_require Copied.advance))
  intro _
  rcases file with ⟨path, entry⟩
  cases entry with
  | directory =>
    apply returns_bind (Keeps.returns (keeps_call Copied.advance))
    intro _
    apply returns_update
    intro m ⟨copies, hstaged, hcopies⟩
    refine ⟨_, hstaged.add _, ?_⟩
    intro hreliable
    rw [hcopies hreliable]
  | file data =>
    apply returns_bind (Keeps.returns (keeps_require Copied.advance))
    intro _
    apply returns_bind (Keeps.returns (keeps_call Copied.advance))
    intro r
    apply returns_bind (R := fun _ => Added files path (r.copied.getD data))
    . apply returns_update
      intro m ⟨copies, hstaged, hcopies⟩
      exact ⟨copies, hstaged.add _, hcopies⟩
    . intro _
      iterate 2
        apply returns_bind (Keeps.returns (keeps_call Added.advance))
        intro _
      apply returns_bind (Keeps.returns (keeps_observe Added.advance))
      intro answer
      apply returns_bind (R := fun _ m => equalFile answer.comparison data (r.copied.getD data) = true →
        Copied (files ++ [(path, .file data)]) m)
      . apply returns_update
        intro m h hequal
        exact Added.compared (c := ⟨answer.comparison, data, r.copied.getD data⟩) h hequal
      . intro _
        apply returns_ite
        . intro hequal
          exact returns_pure fun _ h => h hequal
        . intro _
          apply returns_fail

theorem returns_copyEntries (rest : Files) : ∀ files,
    Returns (Copied files) (copyEntries rest) fun _ => Copied (files ++ rest) := by
  induction rest with
  | nil =>
    intro files
    rw [List.append_nil]
    exact returns_pure fun _ h => h
  | cons file rest ih =>
    intro files
    apply returns_bind returns_copyEntry
    intro _
    have hrest := ih (files ++ [file])
    rw [List.append_assoc] at hrest
    exact hrest

theorem source_advance (m : Machine) (r : Reply) (h : m.source = φ) : (m.advance r).source = φ :=
  (m.flags_advance r).2.2.2.trans h

theorem returns_copyAll : Returns (fun m => m.source = φ) copyAll fun _ m =>
    Copied φ m ∧ m.places .staged = some ⟨.New, m.fresh⟩ := by
  apply returns_bind (Keeps.returns (keeps_existsAt source_advance))
  intro found
  apply returns_ite
  . intro _
    apply returns_fail
  . intro _
    apply returns_bind (Keeps.returns (keeps_call source_advance))
    intro _
    apply returns_bind (R := fun _ m => m.source = φ ∧ Copied [] m)
    . apply returns_update
      intro m h
      exact ⟨h, [], by simp [Staged, Machine.setPlace], fun _ => rfl⟩
    . intro _
      apply returns_bind (R := fun now m => now.source = φ ∧ Copied [] m)
      . exact Program.triple_inspect fun _ h => h
      . intro now
        apply Returns.given
        intro hnow
        rw [hnow]
        apply returns_bind (returns_copyEntries φ [])
        intro _
        apply returns_update
        intro m h
        refine ⟨h, ?_⟩
        obtain ⟨copies, hstaged, _⟩ := h
        have hplace : m.places .staged = some ⟨.New, copies⟩ := hstaged
        simp [Machine.renew, hplace]

def Verifies (m : Machine) (replies : List Reply) : Prop :=
  ∀ after rest, copyAll m replies = (.ok (), after, rest) →
    after.places .staged = some ⟨.New, m.source⟩ ∧ ∀ c ∈ after.comparisons, c.Sound

/--
The copy is verified in every run whose comparisons can all be relied on, and which these are is decided by
what happens to the source file.
-/
theorem copyAll_verifies (m : Machine) (replies : List Reply)
    : ((∀ c ∈ (copyAll m replies).2.1.comparisons, c.Reliable) → Verifies m replies)
      ∧ ∀ source copyOpens a,
          (∀ reads b, Sound ⟨source, ⟨copyOpens, reads⟩⟩ a b) ↔ Reliable source copyOpens a := by
  refine ⟨?_, fun _ _ _ => sound_iff_reliable⟩
  intro hreliable after rest hrun
  have hends := returns_copyAll (φ := m.source) m replies rfl
  rw [hrun] at hends hreliable
  obtain ⟨copies, hstaged, hcopies⟩ := hends.1
  refine ⟨?_, fun c hc => c.sound_of_reliable (hreliable c hc)⟩
  rw [← hcopies hreliable]
  exact hstaged

-- A package of a directory and a file, which are copied and read back without a failure.
def wholePackage : Machine :=
  { machineWith none with source := [("web", .directory), ("web/index.js", .file [59, 10])] }

theorem copyAll_verifies_wholePackage
    : (copyAll wholePackage (List.replicate 11 {})).1 = .ok ()
      ∧ (copyAll wholePackage (List.replicate 11 {})).2.1.comparisons.length = 1
      ∧ Verifies wholePackage (List.replicate 11 {}) := by
  refine ⟨by decide +kernel, by decide +kernel, ?_⟩
  apply (copyAll_verifies wholePackage (List.replicate 11 {})).1
  have hcomparisons : (copyAll wholePackage (List.replicate 11 {})).2.1.comparisons
      = [⟨{}, [59, 10], [59, 10]⟩] := by
    with_unfolding_all rfl
  rw [hcomparisons]
  intro c hc
  rw [List.mem_singleton] at hc
  subst hc
  refine ⟨rfl, ?_, nofun⟩
  rintro - ⟨i, -, -, n, hn, -⟩
  cases hn

-- A package of one file, which is copied wrongly and then cannot be opened.
def lostFile : Outcome String Unit × Machine × List Reply :=
  copyAll { machineWith none with source := [("config.json", .file [123, 125])] }
    [{}, {}, {}, {}, { copied := some [0, 0] }, {}, {}, { comparison.source.opens := false }]

theorem copyAll_lostFile : lostFile.1 = .ok () ∧
    lostFile.2.1.source = [("config.json", .file [123, 125])] ∧
    lostFile.2.1.places .staged = some ⟨.New, [("config.json", .file [0, 0])]⟩ := by
  decide +kernel

end Staged

structure Discovered (s : Snapshot) (m : Machine) : Prop where
  name : BridgeName s.name
  lone : Lone s.name m.services
  service : ∃ service, m.services s.name = some service ∧ s.Of service.config ∧
    (s.running = true ↔ service.state = .Running)

theorem Discovered.advance (m : Machine) (r : Reply) (h : Discovered s m) : Discovered s (m.advance r) := by
  refine ⟨h.name, ?_, ?_⟩
  . rw [Machine.services_advance]
    exact h.lone
  . rw [Machine.services_advance]
    exact h.service

theorem Discovered.staging : Staging (Discovered s) where
  advance := Discovered.advance
  staged _ _ h := ⟨h.name, h.lone, h.service⟩
  compared _ _ h := ⟨h.name, h.lone, h.service⟩
  renew _ h := ⟨h.name, h.lone, h.service⟩

theorem returns_inspectService
    : Returns (Has ρ) (inspectService name) fun found m => found = (ρ name).isSome ∧ Has ρ m := by
  apply returns_bind returns_observe
  intro r
  apply returns_bind returns_serviceAt
  intro found
  apply Returns.given
  intro hfound
  apply returns_ite
  . intro _
    apply returns_fail
  . intro _
    apply returns_pure
    intro _ h
    rw [hfound]
    exact ⟨rfl, h⟩

theorem returns_snapshot_lone (hname : BridgeName name)
    (hlone : ∀ other, BridgeName other → other ≠ name → ρ other = none)
    : Returns (Has ρ) (snapshot name) Discovered := by
  apply returns_snapshot.post
  intro s m ⟨service, state, _, hs, hof, hrunning, _, h⟩
  have hservices : m.services = ρ.set name (some { service with state }) := h
  refine ⟨by rw [hs]; exact hname, ?_, { service with state }, ?_, hof, ?_⟩
  . rw [hs, hservices]
    intro other hother hne
    rw [Registry.set_of_ne _ _ hne]
    exact hlone other hother hne
  . rw [hs, hservices, Registry.set_self]
  . simp [hrunning]

theorem returns_discover : Returns (Has ρ) discover Discovered := by
  apply returns_bind returns_inspectService
  intro native
  apply Returns.given
  intro hnative
  apply returns_bind returns_inspectService
  intro managed
  apply Returns.given
  intro hmanaged
  cases native <;> cases managed
  . apply returns_fail
  . apply returns_snapshot_lone (.inr rfl)
    intro other hother hne
    rcases hother with rfl | rfl
    . simpa using hnative.symm
    . exact absurd rfl hne
  . apply returns_snapshot_lone (.inl rfl)
    intro other hother hne
    rcases hother with rfl | rfl
    . exact absurd rfl hne
    . simpa using hmanaged.symm
  . apply returns_fail

theorem returns_prepare {check : Bool}
    : Returns (Has ρ) (prepare check) fun r m => ∀ s, r = some s → Discovered s m := by
  apply returns_bind (R := Discovered)
  . apply returns_bind (Keeps.returns (keeps_checkPackage fun _ r h => h.advance r))
    intro _
    apply returns_bind returns_discover
    intro old
    apply returns_bind (Keeps.returns (keeps_checkInstallation Discovered.advance))
    intro _
    exact returns_pure fun _ h => h
  . intro old
    apply returns_ite
    . intro _
      apply returns_bind returns_trivial
      intro _
      apply returns_pure
      intro _ _ s hs
      cases hs
    . intro _
      apply returns_bind (Keeps.returns (keeps_stage Discovered.staging))
      intro _
      apply returns_pure
      intro _ h s hs
      cases hs
      exact h

end HikBridge.Upgrade
