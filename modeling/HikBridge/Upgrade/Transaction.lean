import HikBridge.Upgrade.Preparation

/-!
This module contains the upgrade as a transaction: the old installation is complete at every moment, and a
rollback that succeeds leaves the machine as it was before the `try` block.
-/

namespace HikBridge.Upgrade

variable {L : Machine → Prop} {m : Machine} {name : String} {σ : Place → Option Tree} {φ ω : Files}
  {ρ : Registry} {s : Snapshot} {moved installed : Bool}

section Restore

theorem Machine.active_register {package : Package} {after : Option Service} (h : m.active package = false)
    (hafter : ∀ service, after = some service → service.state = .Stopped ∨ service.image ≠ package ∨
      ∃ before, m.services name = some before ∧ before.state = service.state ∧ before.image = service.image)
    : (m.setService name after).active package = false := by
  have hruns : ∀ other, m.runs other package = false → (m.setService name after).runs other package = false := by
    intro other hother
    by_cases hname : other = name
    . cases hservice : after with
      | none => simp [Machine.runs, Machine.setService, Registry.set, hname]
      | some service =>
        have hruns : ¬ (service.state ≠ .Stopped ∧ service.image = package) := by
          rintro ⟨hstate, himage⟩
          rcases hafter service hservice with hstopped | hne | ⟨before, hbefore, hsame, himage'⟩
          . exact hstate hstopped
          . exact hne himage
          . rw [hname] at hother
            simp only [Machine.runs, hbefore, decide_eq_false_iff_not] at hother
            apply hother
            rw [hsame, himage']
            exact ⟨hstate, himage⟩
        simp only [Machine.runs, Machine.setService, Registry.set, hname, if_true, decide_eq_false_iff_not]
        exact hruns
    . simpa [Machine.runs, Machine.setService, Registry.set, hname] using hother
  simp only [Machine.active, Bool.or_eq_false_iff] at *
  exact ⟨hruns _ h.1, hruns _ h.2⟩

theorem Home.register {after : Option Service} (h : Home σ φ m)
    (hafter : ∀ service, after = some service → service.state = .Stopped ∨ service.image ≠ .New ∨
      ∃ before, m.services name = some before ∧ before.state = service.state ∧ before.image = service.image)
    : Home σ φ (m.setService name after) :=
  ⟨h.target, h.beside, h.fresh, Machine.active_register h.quiet hafter⟩

theorem keeps_changeService {text : String} {f : ServiceConfig → ServiceConfig}
    : Program.Keeps (Home σ φ) (changeService name text f) := by
  apply Program.keeps_bind (keeps_observe robust_home.advance)
  intro r
  apply Program.keeps_bind keeps_serviceAt
  intro found
  cases found with
  | none => apply Program.keeps_raise
  | some service =>
    apply Program.keeps_ite Program.keeps_raise
    apply Program.keeps_update
    intro m h
    apply h.register
    intro after hafter
    obtain ⟨before, hbefore, rfl⟩ := Option.map_eq_some_iff.mp hafter
    exact .inr (.inr ⟨before, hbefore, rfl, rfl⟩)

theorem keeps_restoreRegistration : Program.Keeps (Home σ φ) (restoreRegistration s) := by
  apply Program.keeps_bind (keeps_observe robust_home.advance)
  intro opened
  apply Program.keeps_bind keeps_serviceAt
  intro found
  apply Program.keeps_ite
  . apply Program.keeps_bind (keeps_observe robust_home.advance)
    intro r
    apply Program.keeps_bind keeps_serviceAt
    intro found
    apply Program.keeps_ite Program.keeps_raise
    apply Program.keeps_update
    intro m h
    apply h.register
    intro after hafter
    rw [← Option.some.inj hafter]
    exact .inl rfl
  . exact keeps_changeService

theorem keeps_restoreFailures : Program.Keeps (Home σ φ) (restoreFailures s) := by
  unfold restoreFailures
  cases s.failures with
  | none => apply Program.keeps_pure
  | some actions => exact keeps_changeService

-- What is started while the old installation is in its place is a process of it.
theorem keeps_startService : Program.Keeps (Home σ φ) (startService name) := by
  apply Program.keeps_bind (keeps_observe robust_home.advance)
  intro r
  apply Program.triple_bind (R := fun now m => Home σ φ now ∧ Home σ φ m)
  . exact Program.triple_inspect fun _ h => ⟨h, h⟩
  . intro now
    apply Program.Triple.given
    intro hnow
    rw [hnow.target]
    cases now.services name with
    | none => apply Program.keeps_raise
    | some service =>
      apply Program.keeps_ite Program.keeps_raise
      apply Program.keeps_ite Program.keeps_pure
      apply Program.keeps_update
      intro m h
      apply h.register
      intro after hafter
      obtain ⟨before, _, rfl⟩ := Option.map_eq_some_iff.mp hafter
      exact .inr (.inl (by simp))

theorem keeps_restore : Program.Keeps (Home σ φ) (restore s) := by
  apply Program.keeps_bind keeps_restoreRegistration
  intro _
  apply Program.keeps_bind keeps_changeService
  intro _
  apply Program.keeps_bind keeps_changeService
  intro _
  apply Program.keeps_bind keeps_restoreFailures
  intro _
  apply Program.keeps_bind keeps_changeService
  intro _
  apply Program.keeps_ite
  . apply Program.keeps_bind keeps_startService
    intro _
    apply Program.keeps_iterate
    intro _
    apply Program.keeps_bind (keeps_status robust_home.observed)
    intro state
    apply Program.keeps_ite Program.keeps_pure
    apply Program.keeps_bind (keeps_observe robust_home.advance)
    intro clock
    apply Program.keeps_ite
    . apply Program.keeps_raise
    . apply Program.keeps_pure
  . apply Program.keeps_pure

end Restore

theorem triple_stopServices (hname : BridgeName s.name) (hL : Robust L)
    : Program.Triple (Scene L moved installed fun ρ => if installed then Scripted s.name ρ else Lone s.name ρ)
        (stopServices s) (fun _ => Scene L moved installed (Resting s.name)) (fun _ => L) L := by
  apply Program.triple_bind (R := fun now m => now.installed = installed ∧
    Scene L moved installed (fun ρ => if installed then Scripted s.name ρ else Lone s.name ρ) m)
  . exact Program.triple_inspect fun _ h => ⟨h.installed, h⟩
  . intro now
    apply Program.Triple.given
    intro hnow
    rw [hnow]
    cases installed with
    | false =>
      apply (triple_stop hL (downward_lone s.name)).conseq
      . exact fun _ h => h
      . exact fun _ _ h => h
      . exact fun _ _ h => h.layout
      . exact fun _ h => h.layout
    | true =>
      apply Program.triple_bind
        (R := fun _ => Scene L moved true fun ρ => Scripted s.name ρ ∧ Rests nativeName ρ)
      . apply (triple_stop hL (downward_scripted s.name)).conseq
        . exact fun _ h => h
        . exact fun _ _ h => h
        . exact fun _ _ h => h.layout
        . exact fun _ h => h.layout
      . intro _
        apply Program.triple_ite
        . intro hother
          have hmanaged : s.name = managedName := hname.resolve_left hother
          have hdownward := downward_and (downward_scripted s.name) (downward_rests nativeName)
          apply (triple_keeps (keeps_remove (robust_scene hL hdownward)) returns_remove).conseq
          . exact fun _ h => h
          . intro _ m h
            refine ⟨h.1.layout, h.1.moved, h.1.installed, ?_, ?_⟩
            . intro other hbridge hne
              rcases hbridge with rfl | rfl
              . exact h.2
              . exact absurd hmanaged.symm hne
            . rw [hmanaged]
              exact h.1.registry.1.rests hmanaged
          . exact fun _ _ h => h.layout
          . exact fun _ h => h.layout
        . intro hsame
          have hnative : s.name = nativeName := not_not.mp hsame
          apply Program.triple_pure
          intro m h
          refine ⟨h.layout, h.moved, h.installed, ?_, ?_⟩
          . intro other hbridge hne
            rcases hbridge with rfl | rfl
            . exact absurd hnative.symm hne
            . exact h.registry.1.lone hnative
          . rw [hnative]
            exact h.registry.2

-- The new installation is kept aside, as the copy or as what failed.
def KeptAside (m : Machine) : Prop :=
  m.places .staged = some ⟨.New, m.fresh⟩ ∨ m.places .failed = some ⟨.New, m.fresh⟩

-- The old installation is back in its place.
def Back (s : Snapshot) (m : Machine) : Prop :=
  ∃ σ φ, (σ .staged = some ⟨.New, φ⟩ ∨ σ .failed = some ⟨.New, φ⟩) ∧ Home σ φ m ∧ Resting s.name m.services

theorem triple_existsAt {J : Machine → Prop} {place : Place} (hJ : ∀ m r, J m → J (m.advance r))
    : Program.Triple J (existsAt place) (fun found m => found = (m.places place).isSome ∧ J m) (fun _ => J) J := by
  apply Program.triple_bind (keeps_call hJ)
  intro _
  apply Program.triple_bind (R := fun now m => m = now ∧ J m)
  . exact Program.triple_inspect fun _ h => ⟨rfl, h⟩
  . intro now
    apply Program.triple_pure
    intro m h
    rw [h.1]
    exact ⟨rfl, h.1 ▸ h.2⟩

theorem triple_bringBack (hbackup : σ .backup = some ⟨.Old, ω⟩)
    (hkept : σ .staged = some ⟨.New, φ⟩ ∨ σ .failed = some ⟨.New, φ⟩)
    : Program.Triple (fun m => Gone σ φ ω m ∧ Resting s.name m.services) (rename .backup .target)
        (fun _ => Back s) (fun _ => Whole) Whole := by
  have hadvance : ∀ m r, Gone σ φ ω m ∧ Resting s.name m.services →
      Gone σ φ ω (m.advance r) ∧ Resting s.name (m.advance r).services := by
    intro m r h
    rw [Machine.services_advance]
    exact ⟨h.1.advance r, h.2⟩
  apply (triple_rename hadvance).conseq
  . exact fun _ h => h
  . intro _ m ⟨before, h, hm⟩
    rw [hm]
    exact ⟨aside σ .backup none, φ, hkept, h.1.arriveOld hbackup, h.2⟩
  . exact fun _ _ h => h.1.whole hbackup
  . exact fun _ h => h.1.whole hbackup

theorem renameBack_moved {P : Machine → Prop} {Q : Unit → Machine → Prop} {E : String → Machine → Prop}
    {C : Machine → Prop} (hmoved : ∀ m, P m → m.moved = true)
    (h : Program.Triple P
      (do
        let found ← existsAt .target
        (if found then rename .target .failed else pure ())
        rename .backup .target) Q E C)
    : Program.Triple P renameBack Q E C := by
  apply Program.triple_bind (R := fun now m => now.moved = true ∧ P m)
  . exact Program.triple_inspect fun m hm => ⟨hmoved m hm, hm⟩
  . intro now
    apply Program.Triple.given
    intro hnow
    rw [hnow]
    exact h

theorem triple_renameBack_home (hstaged : σ .staged = some ⟨.New, φ⟩)
    : Program.Triple (Scene (Home σ φ) false installed (Resting s.name)) renameBack
        (fun _ => Back s) (fun _ => Whole) Whole := by
  apply Program.triple_bind (R := fun now m => now.moved = false ∧
    Scene (Home σ φ) false installed (Resting s.name) m)
  . exact Program.triple_inspect fun _ h => ⟨h.moved, h⟩
  . intro now
    apply Program.Triple.given
    intro hnow
    rw [hnow]
    apply Program.triple_pure
    intro _ h
    exact ⟨σ, φ, .inl hstaged, h.layout, h.registry⟩

-- Where every machine of a layout has the same answer, looking for the target tells nothing new.
theorem triple_targetFound {L : Machine → Prop} {R : Registry → Prop} {b : Bool}
    (hrobust : Robust (Scene L true installed R)) (htarget : ∀ m, L m → (m.places .target).isSome = b)
    (hwhole : ∀ m, L m → Whole m)
    : Program.Triple (Scene L true installed R) (existsAt .target)
        (fun found m => found = b ∧ Scene L true installed R m) (fun _ => Whole) Whole := by
  apply (triple_existsAt hrobust.advance).conseq
  . exact fun _ h => h
  . intro found m h
    exact ⟨h.1.trans (htarget m h.2.layout), h.2⟩
  . exact fun _ m h => hwhole m h.layout
  . exact fun m h => hwhole m h.layout

theorem triple_renameBack_gone (hbackup : σ .backup = some ⟨.Old, ω⟩) (hstaged : σ .staged = some ⟨.New, φ⟩)
    : Program.Triple (Scene (Gone σ φ ω) true installed (Resting s.name)) renameBack
        (fun _ => Back s) (fun _ => Whole) Whole := by
  have hrobust : Robust (Scene (Gone σ φ ω) true installed (Resting s.name)) :=
    robust_scene robust_gone (downward_resting s.name)
  apply renameBack_moved fun _ h => h.moved
  have htarget : ∀ m, Gone σ φ ω m → (m.places .target).isSome = false := by
    intro m h
    rw [h.target]
    rfl
  apply Program.triple_bind (triple_targetFound hrobust htarget fun m h => h.whole hbackup)
  intro found
  apply Program.Triple.given
  intro hfound
  rw [hfound]
  apply Program.triple_bind (R := fun _ m => Gone σ φ ω m ∧ Resting s.name m.services)
  . exact Program.triple_pure fun _ h => ⟨h.layout, h.registry⟩
  . intro _
    exact triple_bringBack hbackup (.inl hstaged)

theorem triple_renameBack_away (hbackup : σ .backup = some ⟨.Old, ω⟩)
    : Program.Triple (Scene (Away σ ω) true installed (Resting s.name)) renameBack
        (fun _ => Back s) (fun _ => Whole) Whole := by
  have hrobust : Robust (Scene (Away σ ω) true installed (Resting s.name)) :=
    robust_scene robust_away (downward_resting s.name)
  apply renameBack_moved fun _ h => h.moved
  have htarget : ∀ m, Away σ ω m → (m.places .target).isSome = true := by
    intro m h
    rw [h.target]
    rfl
  apply Program.triple_bind (triple_targetFound hrobust htarget fun m h => h.whole hbackup)
  intro found
  apply Program.Triple.given
  intro hfound
  rw [hfound]
  apply Program.triple_bind (R := fun _ m => ∃ φ, Gone (aside σ .failed (some ⟨.New, φ⟩)) φ ω m ∧
    Resting s.name m.services)
  . apply (triple_rename hrobust.advance).conseq
    . exact fun _ h => h
    . intro _ m ⟨before, h, hm⟩
      rw [hm]
      exact ⟨before.fresh, h.layout.depart (h.registry.quiet .New), h.registry⟩
    . exact fun _ _ h => h.layout.whole hbackup
    . exact fun _ h => h.layout.whole hbackup
  . intro _
    apply Program.Triple.exists
    intro φ
    exact triple_bringBack hbackup (.inr rfl)

theorem triple_moveBack_scene (hname : BridgeName s.name) (hL : Robust L) (hwhole : ∀ m, L m → Whole m)
    (hback : Program.Triple (Scene L moved installed (Resting s.name)) renameBack
      (fun _ => Back s) (fun _ => Whole) Whole)
    : Program.Triple (Scene L moved installed fun ρ => if installed then Scripted s.name ρ else Lone s.name ρ)
        (moveBack s) (fun _ => Back s) (fun _ => Whole) Whole := by
  apply Program.triple_bind
  . apply (triple_stopServices hname hL).conseq
    . exact fun _ h => h
    . exact fun _ _ h => h
    . exact fun _ => hwhole
    . exact hwhole
  . intro _
    exact hback

theorem triple_moveBack (hname : BridgeName s.name)
    : Program.Triple (Broken s.name) (moveBack s) (fun _ => Back s) (fun _ => Whole) Whole := by
  intro m ts h
  cases h with
  | untouched σ φ hstaged h =>
    exact triple_moveBack_scene hname robust_home (fun _ h => h.whole) (triple_renameBack_home hstaged) m ts h
  | removed σ φ ω hbackup hstaged h =>
    exact triple_moveBack_scene hname robust_gone (fun _ h => h.whole hbackup)
      (triple_renameBack_gone hbackup hstaged) m ts h
  | replaced σ ω hbackup h =>
    exact triple_moveBack_scene hname robust_away (fun _ h => h.whole hbackup)
      (triple_renameBack_away hbackup) m ts h
  | scripted σ ω hbackup h =>
    exact triple_moveBack_scene hname robust_away (fun _ h => h.whole hbackup)
      (triple_renameBack_away hbackup) m ts h

/--
What the rollback has to bring back: the installation, the service as the snapshot has it and no other
service of the bridge, with the new installation aside.
-/
structure Reverted (s : Snapshot) (m : Machine) : Prop where
  target : m.places .target = some ⟨.Old, m.original⟩
  service : ∃ service, m.services s.name = some service ∧ service.config.command = s.command ∧
    service.config.account = s.account ∧ service.config.start = s.start ∧
    (service.state = .Running ↔ s.running = true)
  lone : Lone s.name m.services
  aside : KeptAside m

theorem restored_config (s : Snapshot) (before : Option Service)
    : (s.restored before).config.command = s.command ∧ (s.restored before).config.account = s.account ∧
      (s.restored before).config.start = s.start := by
  cases before <;> exact ⟨rfl, rfl, rfl⟩

theorem Reverted.of_home {state : ServiceState} {image : Package} (hhome : Home σ φ m)
    (hkept : σ .staged = some ⟨.New, φ⟩ ∨ σ .failed = some ⟨.New, φ⟩) (hresting : Resting s.name ρ)
    (hrunning : s.running = true → state = .Running)
    (hstopped : s.running = false → state = (s.restored (ρ s.name)).state ∧ image = (s.restored (ρ s.name)).image)
    (h : Has (ρ.set s.name (some { s.restored (ρ s.name) with state, image })) m) : Reverted s m := by
  let after : Service := { s.restored (ρ s.name) with state, image }
  have hservices : m.services = ρ.set s.name (some after) := h
  have hafter : m.services s.name = some after := by rw [hservices, Registry.set_self]
  have hconfig := restored_config s (ρ s.name)
  refine ⟨hhome.target, ⟨after, hafter, hconfig.1, hconfig.2.1, hconfig.2.2, ?_⟩, ?_, ?_⟩
  . cases hs : s.running with
    | true => simp [after, hrunning hs]
    | false =>
      have hstate : (s.restored (ρ s.name)).state = .Stopped := by
        cases hbefore : ρ s.name with
        | none => rfl
        | some service => exact hresting.2 service hbefore
      simp [after, (hstopped hs).1, hstate]
  . rw [hservices]
    intro other hother hne
    rw [Registry.set_of_ne _ _ hne]
    exact hresting.1 other hother hne
  . unfold KeptAside
    rw [hhome.beside .staged (by decide), hhome.beside .failed (by decide), hhome.fresh]
    exact hkept

theorem Reverted.advance (m : Machine) (r : Reply) (hquiet : m.active .New = false) (h : Reverted s m)
    : Reverted s (m.advance r) := by
  have hhome : Home m.places m.fresh m := ⟨h.target, fun _ _ => rfl, rfl, hquiet⟩
  have hnext := hhome.advance r
  refine ⟨hnext.target, ?_, ?_, ?_⟩
  . rw [Machine.services_advance]
    exact h.service
  . rw [Machine.services_advance]
    exact h.lone
  . unfold KeptAside
    rw [hnext.beside .staged (by decide), hnext.beside .failed (by decide), hnext.fresh]
    exact h.aside

theorem Reverted.whole (h : Reverted s m) (hquiet : m.active .New = false) : Whole m :=
  .home m.places m.fresh ⟨h.target, fun _ _ => rfl, rfl, hquiet⟩

theorem triple_restore
    : Program.Triple (Back s) (restore s) (fun _ m => m.active .New = false ∧ Reverted s m)
        (fun _ => Whole) Whole := by
  apply Program.Triple.exists
  intro σ
  apply Program.Triple.exists
  intro φ
  apply Program.Triple.given
  intro hkept m ts h
  have hends := (Program.Triple.and (keeps_restore (s := s) (σ := σ) (φ := φ)) (returns_restore (s := s) (ρ := m.services)))
    m ts ⟨h.1, rfl⟩
  apply hends.mono
  . intro _ m' ⟨hhome, state, image, hrunning, hstopped, hhas⟩
    exact ⟨hhome.quiet, Reverted.of_home hhome hkept h.2 hrunning hstopped hhas⟩
  . exact fun _ _ h => h.1.whole
  . exact fun _ h => h.1.whole

/--
A rollback that succeeds brings back what the snapshot says, one that fails leaves the old installation
complete.
-/
theorem triple_rollback (hname : BridgeName s.name)
    : Program.Triple (Broken s.name) (rollback s) (fun _ m => m.active .New = false ∧ Reverted s m)
        (fun _ => Whole) Whole := by
  apply Program.triple_bind (triple_moveBack hname)
  intro _
  apply Program.triple_bind triple_restore
  intro _
  have hadvance : ∀ (m : Machine) r, m.active .New = false ∧ Reverted s m →
      (m.advance r).active .New = false ∧ Reverted s (m.advance r) := by
    intro m r h
    refine ⟨?_, h.2.advance m r h.1⟩
    rw [Machine.active_advance]
    exact h.1
  apply (keeps_say hadvance).conseq
  . exact fun _ h => h
  . exact fun _ _ h => h
  . exact fun _ _ h => h.2.whole h.1
  . exact fun _ h => h.2.whole h.1

theorem Broken.advance {old : String} (m : Machine) (r : Reply) (h : Broken old m) : Broken old (m.advance r) := by
  cases h with
  | untouched σ φ hstaged h =>
    exact .untouched σ φ hstaged ((robust_scene robust_home (downward_lone old)).advance m r h)
  | removed σ φ ω hbackup hstaged h =>
    exact .removed σ φ ω hbackup hstaged ((robust_scene robust_gone (downward_lone old)).advance m r h)
  | replaced σ ω hbackup h =>
    exact .replaced σ ω hbackup ((robust_scene robust_away (downward_lone old)).advance m r h)
  | scripted σ ω hbackup h =>
    exact .scripted σ ω hbackup ((robust_scene robust_away (downward_scripted old)).advance m r h)

theorem triple_say_broken (old : String)
    : Program.Triple (Broken old) say (fun _ => Broken old) (fun _ => Whole) Whole := by
  apply (keeps_say Broken.advance).conseq
  . exact fun _ h => h
  . exact fun _ _ h => h
  . exact fun _ _ h => h.whole
  . exact fun _ h => h.whole

-- What an end of `execute` after the `try` block means.
def EndsWith (s : Snapshot) (ended : Ended) (m : Machine) : Prop :=
  Whole m ∧ ended ≠ .checked ∧ (ended = .upgraded → Verified m) ∧ (ended = .rolledBack → Reverted s m)

theorem triple_transact (hname : BridgeName s.name) (hstaged : σ .staged = some ⟨.New, φ⟩)
    : Program.Triple (fun m => Home σ φ m ∧ Lone s.name m.services) (transact s)
        (EndsWith s) (fun _ => Whole) Whole := by
  apply Program.triple_bind (R := fun _ => Scene (Home σ φ) false false (Lone s.name))
  . apply Program.triple_update
    intro m h
    exact ⟨⟨h.1.target, h.1.beside, h.1.fresh, h.1.quiet⟩, rfl, rfl, h.2⟩
  . intro _
    apply Program.triple_rescue (D := fun _ => Broken s.name)
    . apply Program.triple_bind (triple_attempt hstaged)
      intro _
      apply Program.triple_pure
      intro m h
      exact ⟨h.1, by decide, fun _ => h.2, by simp⟩
    . intro _
      apply Program.triple_bind (triple_say_broken s.name)
      intro _
      apply Program.triple_bind (triple_say_broken s.name)
      intro _
      apply Program.triple_rescue (D := fun _ => Whole)
      . apply Program.triple_bind (triple_rollback hname)
        intro _
        apply Program.triple_pure
        intro m h
        exact ⟨h.2.whole h.1, by decide, by simp, fun _ => h.2⟩
      . intro _
        apply Program.triple_bind (keeps_say Whole.advance)
        intro _
        apply Program.triple_bind (keeps_say Whole.advance)
        intro _
        apply Program.triple_pure
        intro m h
        exact ⟨h, by decide, by simp, by simp⟩

-- The registrations are those of another registry.
def Registered (ρ ρ' : Registry) : Prop :=
  ∀ name, (ρ' name).map (fun service => (service.config, service.marked))
    = (ρ name).map fun service => (service.config, service.marked)

structure Untouched (before after : Machine) : Prop where
  target : after.places .target = some ⟨.Old, after.original⟩
  registered : Registered before.services after.services

-- What holds before the `try` block.
structure Prepared (ρ : Registry) (m : Machine) : Prop where
  home : ∃ σ φ, Home σ φ m
  registered : Registered ρ m.services

theorem Prepared.untouched {before : Machine} (h : Prepared before.services m) : Untouched before m := by
  obtain ⟨σ, φ, hhome⟩ := h.home
  exact ⟨hhome.target, h.registered⟩

theorem Prepared.whole (h : Prepared ρ m) : Whole m := by
  obtain ⟨σ, φ, hhome⟩ := h.home
  exact hhome.whole

theorem observed_prepared : Observed (Prepared ρ) where
  advance m r h := by
    obtain ⟨σ, φ, hhome⟩ := h.home
    refine ⟨⟨σ, φ, hhome.advance r⟩, ?_⟩
    rw [Machine.services_advance]
    exact h.registered
  settle m name next h := by
    obtain ⟨σ, φ, hhome⟩ := h.home
    refine ⟨⟨σ, φ, robust_home.observed.settle m name next hhome⟩, ?_⟩
    intro other
    rw [← h.registered other]
    by_cases hother : other = name
    . rw [hother]
      simp [Machine.mapService, Machine.setService]
      cases m.services name <;> rfl
    . simp [Machine.mapService, Machine.setService, Registry.set_of_ne _ _ hother]

theorem Prepared.setStaged (m : Machine) (tree : Option Tree) (h : Prepared ρ m)
    : Prepared ρ (m.setPlace .staged tree) := by
  obtain ⟨σ, φ, hhome⟩ := h.home
  refine ⟨⟨aside σ .staged tree, φ, ?_, ?_, hhome.fresh, hhome.quiet⟩, h.registered⟩
  . simpa [Machine.setPlace] using hhome.target
  . intro place hplace
    simp only [Machine.setPlace, aside]
    split
    . rfl
    . exact hhome.beside place hplace

theorem staging_prepared : Staging (Prepared ρ) where
  advance := observed_prepared.advance
  staged := Prepared.setStaged
  compared m c h := by
    obtain ⟨σ, φ, hhome⟩ := h.home
    exact ⟨⟨σ, φ, hhome.target, hhome.beside, hhome.fresh, hhome.quiet⟩, h.registered⟩
  renew m h := by
    obtain ⟨σ, φ, hhome⟩ := h.home
    exact ⟨⟨σ, m.renew.fresh, hhome.target, hhome.beside, rfl, hhome.quiet⟩, h.registered⟩

-- The new installation is beside the old one.
structure Ready (ρ : Registry) (m : Machine) : Prop extends Prepared ρ m where
  staged : m.places .staged = some ⟨.New, m.fresh⟩

theorem Ready.advance (m : Machine) (r : Reply) (h : Ready ρ m) : Ready ρ (m.advance r) := by
  refine ⟨observed_prepared.advance m r h.toPrepared, ?_⟩
  obtain ⟨σ, φ, hhome⟩ := h.home
  rw [Machine.places_advance (by decide), (hhome.advance r).fresh, ← hhome.fresh]
  exact h.staged

theorem returns_stage : Returns (Prepared ρ) stage fun _ => Ready ρ := by
  apply returns_bind (Keeps.returns (keeps_existsAny observed_prepared.advance _))
  intro taken
  apply returns_ite
  . intro _
    apply returns_fail
  . intro _
    apply returns_bind (R := fun _ => Ready ρ)
    . intro m ts h
      have hcopy := (keeps_copyAll staging_prepared).and (returns_copyAll (φ := m.source)) m ts ⟨h, rfl⟩
      apply hcopy.mono
      . exact fun _ _ h => ⟨h.1, h.2.2⟩
      . exact fun _ _ h => h.2
      . exact fun _ h => h.2
    . intro _
      apply returns_bind (Keeps.returns (keeps_require Ready.advance))
      intro _
      apply returns_bind (Keeps.returns (keeps_require Ready.advance))
      intro _
      apply returns_bind (Keeps.returns (keeps_say Ready.advance))
      intro _
      exact Keeps.returns (keeps_say Ready.advance)

theorem returns_prepare_ready {check : Bool}
    : Returns (Prepared ρ) (prepare check)
        fun r m => (r = none → check = true) ∧ (r.isSome = true → Ready ρ m) := by
  apply returns_bind (R := fun _ => Prepared ρ)
  . apply returns_bind (Keeps.returns (keeps_checkPackage observed_prepared.advance))
    intro _
    apply returns_bind (Keeps.returns (keeps_discover observed_prepared))
    intro old
    apply returns_bind (Keeps.returns (keeps_checkInstallation observed_prepared.advance))
    intro _
    exact returns_pure fun _ h => h
  . intro old
    apply returns_ite
    . intro hcheck
      apply returns_bind returns_trivial
      intro _
      exact returns_pure fun _ _ => ⟨fun _ => hcheck, by simp⟩
    . intro _
      apply returns_bind returns_stage
      intro _
      exact returns_pure fun _ h => ⟨by simp, fun _ => h⟩

theorem triple_prepare (check : Bool)
    : Program.Triple (fun m => Has ρ m ∧ Prepared ρ m) (prepare check)
        (fun r m => Prepared ρ m ∧ (r = none → check = true) ∧
          ∀ s, r = some s → Discovered s m ∧ Ready ρ m)
        (fun _ => Prepared ρ) (Prepared ρ) := by
  have hkeeps := keeps_prepare check (observed_prepared (ρ := ρ)) staging_prepared
  apply (hkeeps.and ((returns_prepare (ρ := ρ)).and (returns_prepare_ready (ρ := ρ)))).conseq
  . exact fun _ h => ⟨h.2, h.1, h.2⟩
  . intro r m h
    refine ⟨h.1, h.2.2.1, ?_⟩
    intro s hs
    refine ⟨h.2.1 s hs, h.2.2.2 ?_⟩
    rw [hs]
    rfl
  . exact fun _ _ h => h.1
  . exact fun _ h => h.1

theorem ends_transact (rest : List Reply) (hready : Ready ρ m) (hdiscovered : Discovered s m)
    : Program.Ends (EndsWith s) (fun _ => Whole) Whole (transact s m rest) := by
  obtain ⟨σ, φ, hhome⟩ := hready.home
  have hstaged : σ .staged = some ⟨.New, φ⟩ := by
    rw [← hhome.beside .staged (by decide), ← hhome.fresh]
    exact hready.staged
  exact triple_transact hdiscovered.name hstaged m rest ⟨hhome, hdiscovered.lone⟩

theorem triple_executeEnd (check : Bool) (before : Machine)
    : Program.Triple (fun m => Has before.services m ∧ Prepared before.services m) (executeEnd check)
        (fun ended m => Whole m ∧ (ended = .checked → check = true ∧ Untouched before m) ∧
          (ended = .upgraded → Verified m))
        (fun _ => Whole) Whole := by
  apply Program.triple_bind
  . apply (triple_prepare check).conseq
    . exact fun _ h => h
    . exact fun _ _ h => h
    . exact fun _ _ h => h.whole
    . exact fun _ h => h.whole
  . intro prepared
    cases prepared with
    | none =>
      apply Program.triple_pure
      intro m h
      exact ⟨h.1.whole, fun _ => ⟨h.2.1 rfl, h.1.untouched⟩, by simp⟩
    | some s =>
      intro m rest h
      have hfound := h.2.2 s rfl
      apply (ends_transact rest hfound.2 hfound.1).mono
      . exact fun ended m h => ⟨h.1, fun hchecked => absurd hchecked h.2.1, h.2.2.1⟩
      . exact fun _ _ h => h
      . exact fun _ h => h

-- A machine before an upgrade, whatever is registered on it and lies beside the installation.
def installation (services : Registry) (places : Place → Option Tree) (files source : Files) : Machine where
  services name := (services name).map fun service => { service with image := .Old }
  places place := if place = .target then some ⟨.Old, files⟩ else places place
  source
  original := files
  fresh := source

theorem prepared_installation (services : Registry) (places : Place → Option Tree) (files source : Files)
    : Prepared (installation services places files source).services
        (installation services places files source) := by
  refine ⟨⟨places, source, rfl, ?_, rfl, ?_⟩, fun _ => rfl⟩
  . intro place hplace
    simp [installation, hplace]
  . have hruns : ∀ name, (installation services places files source).runs name .New = false := by
      intro name
      simp only [Machine.runs, installation]
      cases services name <;> simp
    simp [Machine.active, hruns]

/--
The service is as it was before the `try` block, no other one is registered, and the two installations are
where they belong.
-/
structure RolledBack (name : String) (before after : Machine) : Prop where
  target : after.places .target = some ⟨.Old, after.original⟩
  service : ∃ was is, before.services name = some was ∧ after.services name = some is ∧
    is.config.command = was.config.command ∧ is.config.account = was.config.account ∧
    is.config.start = was.config.start ∧ (is.state = .Running ↔ was.state = .Running)
  lone : Lone name after.services
  aside : KeptAside after

structure Transaction (check : Bool) (m : Machine) (replies : List Reply) : Prop where
  untouched : Untouched m (prepare check m replies).2.1
  succeeded : (execute check m replies).1 = .ok 0 →
    check = true ∧ Untouched m (execute check m replies).2.1 ∨ Verified (execute check m replies).2.1
  kept : Kept (execute check m replies).2.1
  rolledBack : ∀ s before rest, prepare check m replies = (.ok (some s), before, rest) →
    (transact s before rest).1 = .ok .rolledBack → RolledBack s.name before (transact s before rest).2.1

theorem triple_execute (check : Bool) (before : Machine)
    : Program.Triple (fun m => Has before.services m ∧ Prepared before.services m) (execute check)
        (fun code m => Whole m ∧ (code = 0 → check = true ∧ Untouched before m ∨ Verified m))
        (fun _ => Whole) Whole := by
  apply Program.triple_bind (triple_executeEnd check before)
  intro ended
  apply Program.triple_pure
  intro m h
  refine ⟨h.1, ?_⟩
  cases ended with
  | checked => exact fun _ => .inl (h.2.1 rfl)
  | upgraded => exact fun _ => .inr (h.2.2 rfl)
  | rolledBack => simp [Ended.exitCode]
  | rollbackFailed => simp [Ended.exitCode]

theorem Reverted.rolledBack {before after : Machine} (h : Reverted s after) (hdiscovered : Discovered s before)
    : RolledBack s.name before after := by
  obtain ⟨was, hwas, hof, hrunning⟩ := hdiscovered.service
  obtain ⟨service, hservice, hcommand, haccount, hstart, hstate⟩ := h.service
  refine ⟨h.target, ⟨was, service, hwas, hservice, ?_, ?_, ?_, hstate.trans hrunning⟩, h.lone, h.aside⟩
  . rw [hcommand, hof.command]
  . rw [haccount, hof.account]
  . rw [hstart, hof.start]

/--
An upgrade is a transaction, whatever the outcomes of its steps are.
-/
theorem upgrade_transaction (check : Bool) (services : Registry) (places : Place → Option Tree)
    (files source : Files) (replies : List Reply)
    : Transaction check (installation services places files source) replies := by
  let m := installation services places files source
  have hprepared : Prepared m.services m := prepared_installation services places files source
  have hprepare := triple_prepare check m replies ⟨rfl, hprepared⟩
  have hexecute := triple_execute check m m replies ⟨rfl, hprepared⟩
  constructor
  . apply Program.Ends.state
    apply hprepare.mono
    . exact fun _ _ h => h.1.untouched
    . exact fun _ _ h => h.untouched
    . exact fun _ h => h.untouched
  . intro hcode
    change (execute check m replies).1 = .ok 0 at hcode
    rcases hr : execute check m replies with ⟨_ | _ | _, after, rest⟩
    . rw [hr] at hexecute hcode
      exact hexecute.2 (Outcome.ok.inj hcode)
    . rw [hr] at hcode
      cases hcode
    . rw [hr] at hcode
      cases hcode
  . apply Program.Ends.state
    apply hexecute.mono
    . exact fun _ _ h => h.1.kept
    . exact fun _ _ h => h.kept
    . exact fun _ h => h.kept
  . intro s before rest hrun hended
    change prepare check m replies = _ at hrun
    rw [hrun] at hprepare
    have hfound := hprepare.2.2 s rfl
    have htransact := ends_transact rest hfound.2 hfound.1
    rcases hr : transact s before rest with ⟨ended | _ | _, after, rest'⟩
    . rw [hr] at htransact hended
      cases hended
      exact (htransact.2.2.2 rfl).rolledBack hfound.1
    . rw [hr] at hended
      cases hended
    . rw [hr] at hended
      cases hended

-- The check of an installation whose service is `plainService`.
def checkRun : Outcome String Nat × Machine × List Reply :=
  execute true (installation (machineWith (some plainService)).services (fun _ => none) [] [])
    (List.replicate 60 {})

theorem upgrade_transaction_check : checkRun.1 = .ok 0 ∧ ¬ Verified checkRun.2.1 := by
  refine ⟨by decide +kernel, ?_⟩
  intro ⟨files, service, hverified, _⟩
  have hnone : checkRun.2.1.verified = none := by decide +kernel
  rw [hnone] at hverified
  cases hverified

end HikBridge.Upgrade
