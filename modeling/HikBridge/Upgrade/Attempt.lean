import HikBridge.Upgrade.Stopping

/-!
This module contains the `try` block of `upgrade::execute`: what holds where it throws, and what it has
reached when it does not.
-/

namespace HikBridge.Upgrade

variable {α β : Type} {J L : Machine → Prop} {R : Registry → Prop} {m : Machine} {name : String}
  {σ : Place → Option Tree} {φ ω : Files} {old : String} {s : Snapshot}

/--
The old installation, as far as the tool and the new package are concerned, is complete in its place or
in the backup.
-/
def Kept (m : Machine) : Prop :=
  m.places .target = some ⟨.Old, m.original⟩ ∨ m.places .backup = some ⟨.Old, m.original⟩

inductive Whole (m : Machine) : Prop where
  | home (σ : Place → Option Tree) (φ : Files) (h : Home σ φ m)
  | gone (σ : Place → Option Tree) (φ ω : Files) (hbackup : σ .backup = some ⟨.Old, ω⟩) (h : Gone σ φ ω m)
  | away (σ : Place → Option Tree) (ω : Files) (hbackup : σ .backup = some ⟨.Old, ω⟩) (h : Away σ ω m)

theorem Home.whole (h : Home σ φ m) : Whole m := .home σ φ h

theorem Gone.whole (h : Gone σ φ ω m) (hbackup : σ .backup = some ⟨.Old, ω⟩) : Whole m :=
  .gone σ φ ω hbackup h

theorem Away.whole (h : Away σ ω m) (hbackup : σ .backup = some ⟨.Old, ω⟩) : Whole m :=
  .away σ ω hbackup h

theorem Whole.kept (h : Whole m) : Kept m := by
  cases h with
  | home σ φ h => exact .inl h.target
  | gone σ φ ω hbackup h =>
    apply Or.inr
    rw [h.beside .backup (by decide), hbackup, h.original]
  | away σ ω hbackup h =>
    apply Or.inr
    rw [h.beside .backup (by decide), hbackup, h.original]

theorem Whole.advance (m : Machine) (r : Reply) (h : Whole m) : Whole (m.advance r) := by
  cases h with
  | home σ φ h => exact (h.advance r).whole
  | gone σ φ ω hbackup h => exact (h.advance r).whole hbackup
  | away σ ω hbackup h => exact (h.advance r).whole hbackup

inductive Broken (old : String) (m : Machine) : Prop where
  | untouched (σ : Place → Option Tree) (φ : Files) (hstaged : σ .staged = some ⟨.New, φ⟩)
      (h : Scene (Home σ φ) false false (Lone old) m)
  | removed (σ : Place → Option Tree) (φ ω : Files) (hbackup : σ .backup = some ⟨.Old, ω⟩)
      (hstaged : σ .staged = some ⟨.New, φ⟩) (h : Scene (Gone σ φ ω) true false (Lone old) m)
  | replaced (σ : Place → Option Tree) (ω : Files) (hbackup : σ .backup = some ⟨.Old, ω⟩)
      (h : Scene (Away σ ω) true false (Lone old) m)
  | scripted (σ : Place → Option Tree) (ω : Files) (hbackup : σ .backup = some ⟨.Old, ω⟩)
      (h : Scene (Away σ ω) true true (Scripted old) m)

theorem Broken.whole (h : Broken old m) : Whole m := by
  cases h with
  | untouched σ φ _ h => exact h.layout.whole
  | removed σ φ ω hbackup _ h => exact h.layout.whole hbackup
  | replaced σ ω hbackup h => exact h.layout.whole hbackup
  | scripted σ ω hbackup h => exact h.layout.whole hbackup

theorem Scene.mono {moved installed : Bool} {R' : Registry → Prop} (h : Scene L moved installed R m)
    (hR : ∀ ρ, R ρ → R' ρ) : Scene L moved installed R' m :=
  ⟨h.layout, h.moved, h.installed, hR _ h.registry⟩

-- A rename that fails moves nothing.
theorem triple_rename {source destination : Place} (hJ : ∀ m r, J m → J (m.advance r))
    : Program.Triple J (rename source destination)
        (fun _ m => ∃ before, J before ∧ m = before.move source destination) (fun _ => J) J := by
  apply Program.triple_bind (keeps_observe hJ)
  intro r
  apply Program.triple_bind Program.keeps_inspect
  intro now
  apply Program.triple_ite
  . intro _
    exact Program.triple_raise fun _ h => h
  . intro _
    apply Program.triple_update
    intro m h
    exact ⟨m, h, rfl⟩

theorem triple_stop {moved installed : Bool} (hL : Robust L) (hR : Downward R)
    : Program.Triple (Scene L moved installed R) (stop name)
        (fun _ => Scene L moved installed fun ρ => R ρ ∧ Rests name ρ)
        (fun _ => Scene L moved installed R) (Scene L moved installed R) := by
  apply (triple_keeps (keeps_stop (robust_scene hL hR)) returns_stop).conseq
  . exact fun _ h => h
  . exact fun _ m h => ⟨h.1.layout, h.1.moved, h.1.installed, h.1.registry, h.2⟩
  . exact fun _ _ h => h
  . exact fun _ h => h

theorem triple_moveOut
    : Program.Triple (Scene (Home σ φ) false false (Resting old)) (rename .target .backup)
        (fun _ m => ∃ ω, Scene (Gone (aside σ .backup (some ⟨.Old, ω⟩)) φ ω) false false (Resting old) m)
        (fun _ => Scene (Home σ φ) false false (Resting old)) (Scene (Home σ φ) false false (Resting old)) := by
  have hrobust : Robust (Scene (Home σ φ) false false (Resting old)) :=
    robust_scene robust_home (downward_resting old)
  apply (triple_rename hrobust.advance).conseq
  . exact fun _ h => h
  . intro _ m ⟨before, h, hm⟩
    rw [hm]
    exact ⟨before.original, h.layout.depart (h.registry.quiet .Old), h.moved, h.installed, h.registry⟩
  . exact fun _ _ h => h
  . exact fun _ h => h

theorem triple_moveIn (hstaged : σ .staged = some ⟨.New, φ⟩)
    : Program.Triple (Scene (Gone σ φ ω) true false (Resting old)) (rename .staged .target)
        (fun _ => Scene (Away (aside σ .staged none) ω) true false (Resting old))
        (fun _ => Scene (Gone σ φ ω) true false (Resting old)) (Scene (Gone σ φ ω) true false (Resting old)) := by
  have hrobust : Robust (Scene (Gone σ φ ω) true false (Resting old)) :=
    robust_scene robust_gone (downward_resting old)
  apply (triple_rename hrobust.advance).conseq
  . exact fun _ h => h
  . intro _ m ⟨before, h, hm⟩
    rw [hm]
    exact ⟨h.layout.arriveNew hstaged, h.moved, h.installed, h.registry⟩
  . exact fun _ _ h => h
  . exact fun _ h => h

theorem Scene.written {moved installed : Bool} (h : Scene (Away σ ω) moved installed R m) (ws : List Write)
    : Scene (Away σ ω) moved installed R (m.written .New ws) := by
  have hflags := m.flags_written .New ws
  refine ⟨h.layout.written ws, hflags.1.trans h.moved, hflags.2.1.trans h.installed, ?_⟩
  rw [Machine.services_written]
  exact h.registry

theorem keeps_validateInstalled {moved installed : Bool} (hR : Downward R)
    : Program.Keeps (Scene (Away σ ω) moved installed R) validateInstalled := by
  apply Program.keeps_bind (keeps_observe (robust_scene robust_away hR).advance)
  intro r
  apply Program.keeps_bind (Program.keeps_update fun m h => h.written _)
  intro _
  apply Program.keeps_ite Program.keeps_raise
  apply Program.keeps_ite Program.keeps_raise
  apply Program.keeps_pure

theorem calmer_stopManaged (service : Option Service) (effect : ManagedEffect)
    : Calmer service (service.bind (Machine.stopManaged effect)) := by
  cases service with
  | none => trivial
  | some service =>
    cases effect with
    | kept => exact ⟨rfl, rfl, id⟩
    | stopped pending =>
      refine ⟨rfl, rfl, ?_⟩
      intro hstopped
      simp [hstopped]
    | marked => exact ⟨rfl, rfl, id⟩
    | removed => trivial

theorem Away.script (h : Away σ ω m) (e : ScriptEffect) : Away σ ω (m.script e) := by
  have hw := h.written e.writes
  have himage : ((m.written .New e.writes).places .target).map Tree.package = some .New := by
    simp [hw.target]
  have hnative : (((m.written .New e.writes).setService nativeName
      (e.native.map fun service => { service with image := .New })).active .Old) = false := by
    have hquiet := hw.quiet
    simp only [Machine.active, Bool.or_eq_false_iff] at hquiet ⊢
    refine ⟨?_, ?_⟩
    . cases e.native <;> simp [Machine.runs, Machine.setService, Registry.set]
    . have hne : managedName ≠ nativeName := Ne.symm nativeName_ne_managedName
      simpa [Machine.runs, Machine.setService, Registry.set, hne] using hquiet.2
  unfold Machine.script
  dsimp only
  rw [himage]
  refine ⟨hw.target, hw.beside, hw.original, ?_⟩
  apply Machine.active_setService
  . apply calmer_stopManaged
  . exact hnative

theorem Scripted.script (h : Scripted old m.services) (e : ScriptEffect)
    : Scripted old (m.script e).services := by
  have hmanaged : (m.script e).services managedName
      = (m.services managedName).bind (Machine.stopManaged e.managed) := by
    have hne : managedName ≠ nativeName := Ne.symm nativeName_ne_managedName
    simp [Machine.script, Machine.setService, Registry.set, hne]
  constructor
  . intro hold
    rw [hmanaged, h.lone hold]
    rfl
  . intro hold service hservice
    rw [hmanaged] at hservice
    have hcalmer := calmer_stopManaged (m.services managedName) e.managed
    rw [hservice] at hcalmer
    cases hbefore : m.services managedName with
    | none =>
      rw [hbefore] at hcalmer
      exact hcalmer.elim
    | some before =>
      rw [hbefore] at hcalmer
      exact hcalmer.2.2 (h.rests hold before hbefore)

theorem Resting.scripted {ρ : Registry} (h : Resting old ρ) : Scripted old ρ where
  lone hold := by
    apply h.1 managedName (.inr rfl)
    rw [hold]
    exact Ne.symm nativeName_ne_managedName
  rests hold := by
    rw [← hold]
    exact h.2

theorem keeps_runScript : Program.Keeps (Scene (Away σ ω) true true (Scripted old)) runScript := by
  apply Program.keeps_bind (keeps_observe (robust_scene robust_away (downward_scripted old)).advance)
  intro r
  apply Program.keeps_bind
  . apply Program.keeps_update
    intro m h
    have hflags := m.flags_written .New r.script.writes
    exact ⟨h.layout.script _, hflags.1.trans h.moved, hflags.2.1.trans h.installed, h.registry.script _⟩
  . intro _
    apply Program.keeps_ite Program.keeps_raise
    apply Program.keeps_ite Program.keeps_raise
    apply Program.keeps_pure

theorem keeps_verifyOnce (hJ : Observed J) (hverified : ∀ m verified, J m → J { m with verified })
    : Program.Keeps J verifyOnce := by
  apply Program.keeps_bind (keeps_snapshot hJ)
  intro current
  apply Program.keeps_ite Program.keeps_raise
  apply Program.keeps_bind (keeps_require hJ.advance)
  intro _
  apply Program.keeps_bind (keeps_require hJ.advance)
  intro _
  apply Program.keeps_bind (keeps_status hJ)
  intro _
  apply Program.keeps_bind (keeps_require hJ.advance)
  intro _
  apply Program.keeps_bind (keeps_require hJ.advance)
  intro _
  apply Program.keeps_bind (keeps_require hJ.advance)
  intro _
  apply Program.keeps_update
  intro m
  apply hverified

theorem keeps_verify (hJ : Observed J) (hverified : ∀ m verified, J m → J { m with verified })
    : Program.Keeps J verify := by
  apply Program.keeps_iterate
  intro _
  apply Program.keeps_bind
  . apply Program.keeps_rescue
    . apply Program.keeps_bind (keeps_verifyOnce hJ hverified)
      intro _
      apply Program.keeps_pure
    . intro _
      apply Program.keeps_bind (keeps_observe hJ.advance)
      intro _
      apply Program.keeps_pure
  . intro verified
    apply Program.keeps_ite Program.keeps_pure
    apply Program.keeps_bind (keeps_observe hJ.advance)
    intro clock
    apply Program.keeps_ite
    . apply Program.keeps_raise
    . apply Program.keeps_pure

-- The native service runs, and it starts with the machine.
def Serving (ρ : Registry) : Prop :=
  ∃ service, ρ nativeName = some service ∧ service.state = .Running ∧ service.config.start = .auto

def Verified (m : Machine) : Prop :=
  ∃ files service, m.verified = some (some ⟨.New, files⟩, some service) ∧ service.state = .Running ∧
    service.config.start = .auto

theorem observed_serving : Observed fun m => Away σ ω m ∧ Serving m.services where
  advance m r h := by
    refine ⟨h.1.advance r, ?_⟩
    rw [Machine.services_advance]
    exact h.2
  settle m name next h := by
    refine ⟨robust_away.observed.settle m name next h.1, ?_⟩
    obtain ⟨service, hservice, hstate, hstart⟩ := h.2
    by_cases hname : nativeName = name
    . refine ⟨{ service with state := service.state.settle next }, ?_, ?_, hstart⟩
      . simp [Machine.mapService, Machine.setService, ← hname, hservice]
      . simp [hstate, ServiceState.settle]
    . refine ⟨service, ?_, hstate, hstart⟩
      show (m.services.set name _) nativeName = some service
      rw [Registry.set_of_ne _ _ hname, hservice]

theorem returns_snapshot_away
    : Returns (Away σ ω) (snapshot nativeName)
        fun current m => Away σ ω m ∧ (current.running = true → current.start = .auto → Serving m.services) := by
  intro m ts h
  have hkeeps : Program.Ends _ _ _ (snapshot nativeName m ts) :=
    Keeps.returns (keeps_snapshot (robust_away (σ := σ) (ω := ω)).observed) m ts h
  have hreads : Program.Ends _ _ _ (snapshot nativeName m ts) := returns_snapshot (ρ := m.services) m ts rfl
  rcases hr : snapshot nativeName m ts with ⟨current | _ | _, m', rest⟩
  . rw [hr] at hkeeps hreads
    refine ⟨hkeeps, ?_⟩
    intro hrunning hstart
    obtain ⟨service, state, _, _, hof, hstate, _, hhas⟩ := hreads
    rw [hrunning] at hstate
    refine ⟨{ service with state }, ?_, by simpa using hstate.symm, ?_⟩
    . rw [show m'.services = _ from hhas, Registry.set_self]
    . rw [← hstart, hof.start]
  . trivial
  . trivial

theorem returns_verifyOnce : Returns (Away σ ω) verifyOnce fun _ m => Away σ ω m ∧ Verified m := by
  apply returns_bind returns_snapshot_away
  intro current
  apply returns_ite
  . intro _
    apply returns_fail
  . intro hcurrent
    have hserving : current.running = true ∧ current.start = .auto := by
      simp only [not_not] at hcurrent
      exact ⟨hcurrent.2.1, hcurrent.2.2.1⟩
    apply Returns.pre (H := fun m => Away σ ω m ∧ Serving m.services)
    . apply returns_bind (Keeps.returns (keeps_require observed_serving.advance))
      intro _
      apply returns_bind (Keeps.returns (keeps_require observed_serving.advance))
      intro _
      apply returns_bind (Keeps.returns (keeps_status observed_serving))
      intro _
      apply returns_bind (Keeps.returns (keeps_require observed_serving.advance))
      intro _
      apply returns_bind (Keeps.returns (keeps_require observed_serving.advance))
      intro _
      apply returns_bind (Keeps.returns (keeps_require observed_serving.advance))
      intro _
      apply returns_update
      intro m ⟨haway, service, hservice, hstate, hstart⟩
      refine ⟨⟨haway.target, haway.beside, haway.original, haway.quiet⟩, m.fresh, service, ?_, hstate, hstart⟩
      rw [haway.target, hservice]
    . intro m h
      exact ⟨h.1, h.2 hserving.1 hserving.2⟩

theorem returns_verify : Returns (Away σ ω) verify fun _ m => Verified m := by
  apply returns_iterate (I := fun _ => Away σ ω)
  intro _
  apply returns_bind (R := fun verified m => Away σ ω m ∧ (verified = true → Verified m))
  . apply Program.triple_rescue (D := fun _ => Away σ ω)
    . apply Program.triple_bind (R := fun _ m => Away σ ω m ∧ Verified m)
      . apply (Program.Triple.and (keeps_verifyOnce robust_away.observed fun _ _ h =>
          ⟨h.target, h.beside, h.original, h.quiet⟩) returns_verifyOnce).conseq
        . exact fun _ h => ⟨h, h⟩
        . exact fun _ _ h => h.2
        . exact fun _ _ h => h.1
        . exact fun _ _ => trivial
      . intro _
        exact Program.triple_pure fun _ h => ⟨h.1, fun _ => h.2⟩
    . intro _
      apply returns_bind (Keeps.returns (keeps_observe robust_away.advance))
      intro _
      exact returns_pure fun _ h => ⟨h, by simp⟩
  . intro verified
    apply returns_ite
    . intro hverified
      exact returns_pure fun _ h => h.2 hverified
    . intro _
      apply Returns.pre (H := Away σ ω)
      . apply returns_bind (Keeps.returns (keeps_observe robust_away.advance))
        intro clock
        apply returns_ite
        . intro _
          apply returns_fail
        . intro _
          exact returns_pure fun _ h => h
      . exact fun _ h => h.1

-- A part that keeps the scene throws as the scene says.
theorem Keeps.broken {m : Run α} {C : Machine → Prop} (h : Program.Keeps J m)
    (hbroken : ∀ m, J m → Broken old m) (hcut : ∀ m, J m → C m)
    : Program.Triple J m (fun _ => J) (fun _ => Broken old) C :=
  Program.Triple.conseq h (fun _ => id) (fun _ _ => id) (fun _ => hbroken) hcut

theorem triple_install (hbackup : σ .backup = some ⟨.Old, ω⟩)
    : Program.Triple (Scene (Away σ ω) true false (Resting s.name)) (install s)
        (fun _ m => Scene (Away σ ω) true true (Scripted s.name) m ∧ Verified m)
        (fun _ => Broken s.name) Whole := by
  have hreplaced : ∀ m, Scene (Away σ ω) true false (Resting s.name) m → Broken s.name m :=
    fun m h => .replaced σ ω hbackup (h.mono fun _ h => h.1)
  have hscripted : ∀ m, Scene (Away σ ω) true true (Scripted s.name) m → Broken s.name m :=
    fun m h => .scripted σ ω hbackup h
  have hwhole : ∀ {installed R} m, Scene (Away σ ω) true installed R m → Whole m :=
    fun m h => h.layout.whole hbackup
  apply Program.triple_bind
    (Keeps.broken (keeps_validateInstalled (downward_resting s.name)) hreplaced hwhole)
  intro _
  apply Program.triple_bind (R := fun _ => Scene (Away σ ω) true false (Resting s.name))
  . apply Keeps.broken (Program.keeps_ite _ Program.keeps_pure) hreplaced hwhole
    exact keeps_remove (robust_scene robust_away (downward_resting s.name))
  . intro _
    apply Program.triple_bind (R := fun _ => Scene (Away σ ω) true true (Scripted s.name))
    . apply Program.triple_update
      intro m h
      exact ⟨⟨h.layout.target, h.layout.beside, h.layout.original, h.layout.quiet⟩, h.moved, rfl, h.registry.scripted⟩
    . intro _
      apply Program.triple_bind (Keeps.broken keeps_runScript hscripted hwhole)
      intro _
      have hkeeps : Program.Keeps (Scene (Away σ ω) true true (Scripted s.name)) verify := by
        apply keeps_verify (robust_scene robust_away (downward_scripted s.name)).observed
        intro m verified h
        exact ⟨⟨h.layout.target, h.layout.beside, h.layout.original, h.layout.quiet⟩, h.moved, h.installed,
          h.registry⟩
      apply (Program.Triple.and hkeeps returns_verify).conseq
      . exact fun m h => ⟨h, h.layout⟩
      . exact fun _ _ h => h
      . exact fun _ m h => hscripted m h.1
      . exact fun m h => hwhole m h.1

theorem keeps_say_verified {old : String}
    : Program.Keeps (fun m => Scene (Away σ ω) true true (Scripted old) m ∧ Verified m) say := by
  apply keeps_say
  intro m r h
  refine ⟨(robust_scene robust_away (downward_scripted old)).advance m r h.1, ?_⟩
  unfold Verified
  rw [(m.flags_advance r).2.2.1]
  exact h.2

/--
Where the `try` block throws the old installation is complete, and the flags say where. It returns when
`verify` has.
-/
theorem triple_attempt (hstaged : σ .staged = some ⟨.New, φ⟩)
    : Program.Triple (Scene (Home σ φ) false false (Lone s.name)) (attempt s)
        (fun _ m => Whole m ∧ Verified m) (fun _ => Broken s.name) Whole := by
  have huntouched : ∀ {R : Registry → Prop} (_ : ∀ ρ, R ρ → Lone s.name ρ) m,
      Scene (Home σ φ) false false R m → Broken s.name m :=
    fun hR m h => .untouched σ φ hstaged (h.mono hR)
  apply Program.triple_bind (R := fun _ => Scene (Home σ φ) false false (Resting s.name))
  . apply (triple_stop robust_home (downward_lone s.name)).conseq
    . exact fun _ h => h
    . exact fun _ _ h => h
    . exact fun _ => huntouched fun _ h => h
    . exact fun m h => h.layout.whole
  . intro _
    apply Program.triple_bind
      (R := fun _ m => ∃ ω, Scene (Gone (aside σ .backup (some ⟨.Old, ω⟩)) φ ω) false false (Resting s.name) m)
    . apply triple_moveOut.conseq
      . exact fun _ h => h
      . exact fun _ _ h => h
      . exact fun _ => huntouched fun _ h => h.1
      . exact fun m h => h.layout.whole
    . intro _
      apply Program.Triple.exists
      intro ω
      let σ' := aside σ .backup (some ⟨.Old, ω⟩)
      have hbackup : σ' .backup = some ⟨.Old, ω⟩ := rfl
      have hstaged' : σ' .staged = some ⟨.New, φ⟩ := hstaged
      apply Program.triple_bind (R := fun _ => Scene (Gone σ' φ ω) true false (Resting s.name))
      . apply Program.triple_update
        intro m h
        exact ⟨⟨h.layout.target, h.layout.beside, h.layout.fresh, h.layout.original, h.layout.quiet⟩, rfl,
          h.installed, h.registry⟩
      . intro _
        let σ'' := aside σ' .staged none
        have hbackup' : σ'' .backup = some ⟨.Old, ω⟩ := rfl
        apply Program.triple_bind (R := fun _ => Scene (Away σ'' ω) true false (Resting s.name))
        . apply (triple_moveIn hstaged').conseq
          . exact fun _ h => h
          . exact fun _ _ h => h
          . exact fun _ m h => .removed σ' φ ω hbackup hstaged' (h.mono fun _ h => h.1)
          . exact fun m h => h.layout.whole hbackup
        . intro _
          apply Program.triple_bind (triple_install hbackup')
          intro _
          have hsays : ∀ m, Scene (Away σ'' ω) true true (Scripted s.name) m ∧ Verified m → Broken s.name m :=
            fun m h => .scripted σ'' ω hbackup' h.1
          have hwhole : ∀ m, Scene (Away σ'' ω) true true (Scripted s.name) m ∧ Verified m → Whole m :=
            fun m h => h.1.layout.whole hbackup'
          apply Program.triple_bind (Keeps.broken keeps_say_verified hsays hwhole)
          intro _
          apply (Keeps.broken keeps_say_verified hsays hwhole).conseq
          . exact fun _ h => h
          . exact fun _ m h => ⟨hwhole m h, h.2⟩
          . exact fun _ _ h => h
          . exact fun _ h => h

end HikBridge.Upgrade
