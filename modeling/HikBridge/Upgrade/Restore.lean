import HikBridge.Upgrade.Services

/-!
This module contains what `restore` makes of the registration of a service, and when that is what the
snapshot of the service says.
-/

namespace HikBridge.Upgrade

variable {α β : Type} {ρ : Registry} {name : String} {service : Service}

namespace Registry

@[simp]
theorem set_self (ρ : Registry) (name : String) (service : Option Service)
    : ρ.set name service name = service := by
  simp [set]

@[simp]
theorem set_set (ρ : Registry) (name : String) (service service' : Option Service)
    : (ρ.set name service).set name service' = ρ.set name service' := by
  funext other
  simp only [set]
  split <;> rfl

theorem set_eq_self (h : ρ name = some service) : ρ.set name (some service) = ρ := by
  funext other
  unfold set
  split
  . next hother => rw [hother, h]
  . rfl

theorem set_of_ne {other : String} (ρ : Registry) (service : Option Service) (h : other ≠ name)
    : ρ.set name service other = ρ other := by
  simp [set, h]

end Registry

namespace Machine

variable (m : Machine)

@[simp]
theorem services_written (package : Package) (ws : List Write)
    : (m.written package ws).services = m.services := by
  unfold written
  split
  . rfl
  . cases package <;> rfl

@[simp]
theorem services_serve (package : Package) (r : Reply) : (m.serve package r).services = m.services := by
  unfold serve
  split <;> simp

@[simp]
theorem services_advance (r : Reply) : (m.advance r).services = m.services := by
  simp [advance]

end Machine

def Has (ρ : Registry) (m : Machine) : Prop := m.services = ρ

theorem Has.advance {m : Machine} (h : Has ρ m) (r : Reply) : Has ρ (m.advance r) := by
  unfold Has
  rw [Machine.services_advance]
  exact h

theorem Has.mapService {m : Machine} (h : Has (ρ.set name (some service)) m) (f : Service → Service)
    : Has (ρ.set name (some (f service))) (m.mapService name f) := by
  unfold Has at *
  simp [Machine.mapService, Machine.setService, h]

def Returns (P : Machine → Prop) (m : Run α) (Q : α → Machine → Prop) : Prop :=
  Program.Triple P m Q (fun _ _ => True) fun _ => True

section Returns

variable {P : Machine → Prop} {Q K : α → Machine → Prop}

theorem returns_pure {value : α} (h : ∀ m, P m → Q value m) : Returns P (pure value) Q :=
  Program.triple_pure h

theorem returns_bind {R : β → Machine → Prop} {m : Run β} {f : β → Run α} (hm : Returns P m R)
    (hf : ∀ b, Returns (R b) (f b) Q) : Returns P (m >>= f) Q :=
  Program.triple_bind hm hf

theorem returns_fail {text : String} : Returns P (fail text) Q :=
  Program.triple_raise fun _ _ => trivial

theorem returns_update {Q : Unit → Machine → Prop} {f : Machine → Machine} (h : ∀ m, P m → Q () (f m))
    : Returns P (Program.update f) Q :=
  Program.triple_update h

theorem returns_ite {c : Prop} [Decidable c] {m n : Run α} (hthen : c → Returns P m Q)
    (helse : ¬ c → Returns P n Q) : Returns P (if c then m else n) Q :=
  Program.triple_ite hthen helse

theorem returns_iterate {I : β → Machine → Prop} {body : β → Run (β ⊕ α)} {b : β}
    (hbody : ∀ b, Returns (I b) (body b) fun r m => Sum.elim (fun b => I b m) (fun a => Q a m) r)
    : Returns (I b) (Program.iterate body b) Q :=
  Program.triple_iterate (fun _ _ _ => trivial) hbody

theorem Returns.post {m : Run α} (h : Returns P m K) (hpost : ∀ a m, K a m → Q a m) : Returns P m Q :=
  Program.Triple.conseq h (fun _ => id) hpost (fun _ _ => id) fun _ => id

theorem Returns.exists {ι : Type} {P : ι → Machine → Prop} {m : Run α} (h : ∀ i, Returns (P i) m Q)
    : Returns (fun s => ∃ i, P i s) m Q :=
  Program.Triple.exists h

theorem Returns.given {φ : Prop} {m : Run α} (h : φ → Returns P m Q)
    : Returns (fun s => φ ∧ P s) m Q :=
  Program.Triple.given h

theorem Returns.pre {H : Machine → Prop} {m : Run α} (h : Returns H m Q) (hpre : ∀ m, P m → H m)
    : Returns P m Q :=
  Program.Triple.pre h hpre

theorem returns_trivial {m : Run α} : Returns P m fun _ _ => True := by
  intro s ts _
  rcases m s ts with ⟨_ | _ | _, s, ts⟩ <;> trivial

theorem returns_observe : Returns (Has ρ) observe fun _ => Has ρ := by
  apply returns_bind (R := fun _ => Has ρ)
  . exact Program.triple_ask (fun _ _ => trivial) fun _ _ h => h
  . intro r
    apply returns_bind (R := fun _ => Has ρ)
    . exact returns_update fun _ h => h.advance r
    . intro _
      exact returns_pure fun _ h => h

theorem returns_call {text : String} : Returns (Has ρ) (call text) fun _ => Has ρ := by
  apply returns_bind returns_observe
  intro r
  apply returns_ite
  . intro _
    exact returns_fail
  . intro _
    exact returns_pure fun _ h => h

theorem returns_require {text : String} : Returns (Has ρ) (require text) fun _ => Has ρ := by
  apply returns_bind returns_call
  intro r
  apply returns_ite
  . intro _
    exact returns_fail
  . intro _
    exact returns_pure fun _ h => h

theorem returns_serviceAt
    : Returns (Has ρ) (serviceAt name) fun found m => found = ρ name ∧ Has ρ m := by
  apply returns_bind (R := fun now m => now.services = ρ ∧ Has ρ m)
  . exact Program.triple_inspect fun _ h => ⟨h, h⟩
  . intro now
    apply returns_pure
    intro m h
    rw [h.1]
    exact ⟨rfl, h.2⟩

theorem returns_config2 {value : Reply → β}
    : Returns (Has ρ) (config2 value) fun r m => (∀ b, r = some b → ∃ reply, b = value reply) ∧ Has ρ m := by
  apply returns_bind returns_observe
  intro size
  apply returns_ite
  . intro _
    exact returns_pure fun _ h => ⟨by simp, h⟩
  . intro _
    apply returns_bind returns_call
    intro r
    apply returns_pure
    intro _ h
    refine ⟨?_, h⟩
    intro b hb
    exact ⟨r, (Option.some.inj hb).symm⟩

theorem returns_status
    : Returns (Has (ρ.set name (some service))) (status name)
        fun state m => (∃ next, state = service.state.settle next) ∧
          Has (ρ.set name (some { service with state })) m := by
  apply returns_bind returns_call
  intro r
  let settled : Service := { service with state := service.state.settle r.state }
  apply returns_bind (R := fun _ => Has (ρ.set name (some settled)))
  . exact returns_update fun _ h => h.mapService _
  . intro _
    apply returns_bind returns_serviceAt
    intro found
    apply Returns.given
    intro hfound
    rw [hfound, Registry.set_self]
    apply returns_pure
    intro _ h
    exact ⟨⟨r.state, rfl⟩, h⟩

end Returns

def Snapshot.registered (s : Snapshot) (before : Option Service) : Service :=
  match before with
  | none => { config := s.created }
  | some service => { service with config := service.config.change s.configChange }

def Snapshot.restoredFailures (s : Snapshot) (p : FailurePolicy) : FailurePolicy :=
  match s.failures with
  | none => p
  | some actions => p.change actions

def Snapshot.restored (s : Snapshot) (before : Option Service) : Service :=
  let service := s.registered before
  { service with config := { service.config with
      delayed := s.delayed
      description := s.description
      failures := s.restoredFailures service.config.failures
      failureFlag := s.failureFlag } }

section Restore

variable {s : Snapshot}

theorem returns_changeService {text : String} {f : ServiceConfig → ServiceConfig}
    : Returns (Has (ρ.set name (some service))) (changeService name text f)
        fun _ => Has (ρ.set name (some { service with config := f service.config })) := by
  apply returns_bind returns_observe
  intro r
  apply returns_bind returns_serviceAt
  intro found
  apply Returns.given
  intro hfound
  rw [hfound, Registry.set_self]
  apply returns_ite
  . intro _
    exact returns_fail
  . intro _
    exact returns_update fun _ h => h.mapService _

theorem returns_createService
    : Returns (Has ρ) (createService s)
        fun _ m => ρ s.name = none ∧ Has (ρ.set s.name (some { config := s.created })) m := by
  apply returns_bind returns_observe
  intro r
  apply returns_bind returns_serviceAt
  intro found
  apply Returns.given
  intro hfound
  apply returns_ite
  . intro _
    exact returns_fail
  . intro hnone
    apply returns_update
    intro m h
    refine ⟨?_, ?_⟩
    . rw [← hfound]
      simpa using fun h => hnone (.inr h)
    . unfold Has at *
      simp [Machine.setService, h]

theorem returns_restoreRegistration
    : Returns (Has ρ) (restoreRegistration s)
        fun _ => Has (ρ.set s.name (some (s.registered (ρ s.name)))) := by
  apply returns_bind returns_observe
  intro opened
  apply returns_bind returns_serviceAt
  intro found
  apply Returns.given
  intro hfound
  apply returns_ite
  . intro _
    apply returns_createService.post
    intro _ m h
    rw [h.1]
    exact h.2
  . intro hopened
    cases hρ : ρ s.name with
    | none =>
      rw [hρ] at hfound
      simp [hfound] at hopened
    | some service =>
      rw [← Registry.set_eq_self hρ]
      apply returns_changeService.post
      intro _ m h
      rw [Registry.set_set] at *
      exact h

theorem returns_restoreFailures
    : Returns (Has (ρ.set s.name (some service))) (restoreFailures s)
        fun _ => Has (ρ.set s.name (some { service with config :=
          { service.config with failures := s.restoredFailures service.config.failures } })) := by
  unfold restoreFailures Snapshot.restoredFailures
  cases s.failures with
  | none => exact returns_pure fun _ h => h
  | some actions => exact returns_changeService

theorem returns_startService
    : Returns (Has (ρ.set name (some service))) (startService name)
        fun _ m => ∃ state image, Has (ρ.set name (some { service with state, image })) m := by
  apply returns_bind returns_observe
  intro r
  apply returns_bind (R := fun now m => now.services = ρ.set name (some service) ∧
    Has (ρ.set name (some service)) m)
  . exact Program.triple_inspect fun _ h => ⟨h, h⟩
  . intro now
    apply Returns.given
    intro hnow
    rw [hnow, Registry.set_self]
    cases now.places .target with
    | none => exact returns_fail
    | some tree =>
      apply returns_ite
      . intro _
        exact returns_fail
      . intro _
        apply returns_ite
        . intro _
          exact returns_pure fun _ h => ⟨service.state, service.image, h⟩
        . intro _
          apply returns_update
          intro _ h
          exact ⟨.StartPending, tree.package, h.mapService _⟩

theorem returns_waitRunning
    : Returns (fun m => ∃ state image, Has (ρ.set name (some { service with state, image })) m)
        (waitRunning name)
        fun _ m => ∃ image, Has (ρ.set name (some { service with state := .Running, image })) m := by
  apply returns_iterate
    (I := fun _ m => ∃ state image, Has (ρ.set name (some { service with state, image })) m)
  intro _
  apply Returns.exists
  intro state
  apply Returns.exists
  intro image
  apply returns_bind returns_status
  intro now
  apply Returns.given
  intro _
  apply returns_ite
  . intro hnow
    apply returns_pure
    intro _ h
    rw [hnow] at h
    exact ⟨image, h⟩
  . intro _
    apply returns_bind returns_observe
    intro clock
    apply returns_ite
    . intro _
      exact returns_fail
    . intro _
      exact returns_pure fun _ h => ⟨now, image, h⟩

theorem returns_restore
    : Returns (Has ρ) (restore s)
        fun _ m => ∃ state image,
          (s.running = true → state = .Running) ∧
          (s.running = false → state = (s.restored (ρ s.name)).state ∧ image = (s.restored (ρ s.name)).image) ∧
          Has (ρ.set s.name (some { s.restored (ρ s.name) with state, image })) m := by
  apply returns_bind returns_restoreRegistration
  intro _
  apply returns_bind returns_changeService
  intro _
  apply returns_bind returns_changeService
  intro _
  apply returns_bind returns_restoreFailures
  intro _
  apply returns_bind returns_changeService
  intro _
  apply returns_ite
  . intro hrunning
    apply returns_bind returns_startService
    intro _
    apply returns_waitRunning.post
    intro _ m ⟨image, h⟩
    exact ⟨.Running, image, fun _ => rfl, by simp [hrunning], h⟩
  . intro hrunning
    apply returns_pure
    intro m h
    exact ⟨_, _, by simp [hrunning], fun _ => ⟨rfl, rfl⟩, h⟩

end Restore

-- What a snapshot takes over from the configuration as it stands.
structure Snapshot.Of (s : Snapshot) (c : ServiceConfig) : Prop where
  command : s.command = c.command
  account : s.account = c.account
  start : s.start = c.start
  failures : ∀ a, s.failures = some a → ∃ nullText, a = c.failures.report nullText

theorem returns_snapshot
    : Returns (Has ρ) (snapshot name)
        fun s m => ∃ service state, ρ name = some service ∧ s.name = name ∧ s.Of service.config ∧
          s.running = (state == .Running) ∧ (state = .Running ∨ state = .Stopped) ∧
          Has (ρ.set name (some { service with state })) m := by
  apply returns_bind returns_observe
  intro opened
  apply returns_bind returns_serviceAt
  intro found
  apply Returns.given
  intro hfound
  rw [hfound]
  cases hρ : ρ name with
  | none => exact returns_fail
  | some service =>
    apply returns_ite
    . intro _
      exact returns_fail
    . intro _
      apply returns_bind returns_observe
      intro _
      apply returns_bind returns_call
      intro _
      rw [← Registry.set_eq_self hρ]
      apply returns_bind returns_status
      intro state
      apply Returns.given
      intro _
      apply returns_ite
      . intro _
        exact returns_fail
      . intro hstate
        apply returns_bind returns_config2
        intro delayed
        apply Returns.given
        intro _
        apply returns_bind returns_config2
        intro description
        apply Returns.given
        intro _
        apply returns_bind returns_config2
        intro failures
        apply Returns.given
        intro hfailures
        apply returns_bind returns_config2
        intro flag
        apply Returns.given
        intro _
        apply returns_bind returns_call
        intro _
        apply returns_bind returns_require
        intro _
        apply returns_bind returns_require
        intro _
        apply returns_bind returns_call
        intro exe
        apply returns_bind returns_require
        intro kind
        apply returns_ite
        . intro _
          exact returns_fail
        . intro _
          apply returns_ite
          . intro _
            exact returns_fail
          . intro _
            apply returns_pure
            intro m h
            have hof : ∀ a, failures = some a → ∃ nullText, a = service.config.failures.report nullText := by
              intro a ha
              obtain ⟨reply, hreply⟩ := hfailures a ha
              exact ⟨reply.nullText, hreply⟩
            refine ⟨service, state, rfl, rfl, ⟨rfl, rfl, rfl, hof⟩, rfl, ?_, ?_⟩
            . by_cases hrunning : state = .Running
              . exact .inl hrunning
              . exact .inr (by simpa [hrunning] using hstate)
            . rw [Registry.set_set]
              exact h

/--
The failure policy is the one that was reported, where null stands for nothing.
-/
structure FailurePolicy.Shows (p : FailurePolicy) (a : FailureActions) : Prop where
  resetPeriod : p.resetPeriod = a.resetPeriod
  rebootMessage : p.rebootMessage = a.rebootMessage.getD ""
  command : p.command = a.command.getD ""
  actions : p.actions = a.actions.getD []

structure FailurePolicy.CoveredBy (p : FailurePolicy) (a : FailureActions) : Prop where
  rebootMessage : a.rebootMessage = none → p.rebootMessage = ""
  command : a.command = none → p.command = ""
  actions : a.actions = none → p.actions = []

theorem getD_eq_iff {text : Option String} {old : String}
    : text.getD old = text.getD "" ↔ (text = none → old = "") := by
  cases text <;> simp

theorem FailurePolicy.actions_change (p q : FailurePolicy) (nullText : Bool)
    : (p.change (q.report nullText)).actions = if q.actions = [] then p.actions else q.actions := by
  unfold change report
  cases q.actions <;> simp

theorem FailurePolicy.resetPeriod_change (p q : FailurePolicy) (nullText : Bool)
    : (p.change (q.report nullText)).resetPeriod = if q.actions = [] then p.resetPeriod else q.resetPeriod := by
  unfold change report
  cases q.actions <;> simp

/--
`ChangeServiceConfig2W` brings a failure policy back if and only if it was given all that it has to clear.
-/
theorem FailurePolicy.shows_change_iff (p q : FailurePolicy) (nullText : Bool)
    : (p.change (q.report nullText)).Shows (q.report nullText) ↔ p.CoveredBy (q.report nullText) := by
  have htexts : (p.change (q.report nullText)).rebootMessage
        = (q.report nullText).rebootMessage.getD p.rebootMessage ∧
      (p.change (q.report nullText)).command = (q.report nullText).command.getD p.command := by
    unfold change
    split <;> exact ⟨rfl, rfl⟩
  have hactions : (q.report nullText).actions = none ↔ q.actions = [] := by
    simp [report]
  constructor
  . intro h
    refine ⟨?_, ?_, ?_⟩
    . rw [← getD_eq_iff, ← htexts.1]
      exact h.rebootMessage
    . rw [← getD_eq_iff, ← htexts.2]
      exact h.command
    . intro hnone
      have hcleared := h.actions
      rw [actions_change, if_pos (hactions.mp hnone), hnone] at hcleared
      exact hcleared
  . intro h
    refine ⟨?_, ?_, ?_, ?_⟩
    . rw [resetPeriod_change]
      split
      . next hq => rw [p.unset (h.actions (hactions.mpr hq)), report, q.unset hq]
      . rfl
    . rw [htexts.1, getD_eq_iff]
      exact h.rebootMessage
    . rw [htexts.2, getD_eq_iff]
      exact h.command
    . rw [actions_change]
      split
      . next hq =>
        rw [hactions.mpr hq]
        exact h.actions (hactions.mpr hq)
      . next hq => simp [report, hq]

-- Every field that the snapshot captured has its value.
structure Snapshot.Captured (s : Snapshot) (c : ServiceConfig) : Prop where
  command : c.command = s.command
  display : c.display = s.display
  account : c.account = s.account
  group : c.group = s.group
  type : c.type = s.type
  start : c.start = s.start
  error : c.error = s.error
  dependencies : c.dependencies = s.dependencies
  delayed : c.delayed = s.delayed
  description : c.description = s.description
  failureFlag : c.failureFlag = s.failureFlag
  failures : ∀ a, s.failures = some a → c.failures.Shows a

def Snapshot.Restored (s : Snapshot) (m : Machine) : Prop :=
  ∃ service, m.services s.name = some service ∧ s.Captured service.config ∧
    (s.running = true → service.state = .Running)

def Snapshot.Clears (s : Snapshot) (before : Option Service) : Prop :=
  ∀ service a, before = some service → s.failures = some a → service.config.failures.CoveredBy a

theorem captured_restored_iff {s : Snapshot} {c : ServiceConfig} (hof : s.Of c) (before : Option Service)
    : s.Captured (s.restored before).config ↔ s.Clears before := by
  have hbase : ∀ P : Prop, ((∀ a, s.failures = some a →
      (s.restored before).config.failures.Shows a) ↔ P) → (s.Captured (s.restored before).config ↔ P) := by
    intro P hP
    rw [← hP]
    constructor
    . intro h
      exact h.failures
    . intro h
      cases before <;> exact ⟨rfl, rfl, rfl, rfl, rfl, rfl, rfl, rfl, rfl, rfl, rfl, h⟩
  apply hbase
  cases hfailures : s.failures with
  | none => simp [Snapshot.Clears, hfailures]
  | some a =>
    obtain ⟨nullText, rfl⟩ := hof.failures a hfailures
    cases before with
    | none =>
      have h := FailurePolicy.shows_change_iff {} c.failures nullText
      have hcovered : FailurePolicy.CoveredBy {} (c.failures.report nullText) :=
        ⟨fun _ => rfl, fun _ => rfl, fun _ => rfl⟩
      simpa [Snapshot.Clears, Snapshot.restored, Snapshot.registered, Snapshot.restoredFailures, hfailures,
        Snapshot.created, hcovered] using h
    | some service =>
      have h := FailurePolicy.shows_change_iff service.config.failures c.failures nullText
      simpa [Snapshot.Clears, Snapshot.restored, Snapshot.registered, Snapshot.restoredFailures, hfailures,
        ServiceConfig.change] using h

theorem restored_iff {s : Snapshot} {c : ServiceConfig} (hof : s.Of c) {later after : Machine}
    {answers rest : List Reply} (hrestore : restore s later answers = (.ok (), after, rest))
    : s.Restored after ↔ s.Clears (later.services s.name) := by
  have h : Program.Ends _ _ _ (restore s later answers) :=
    returns_restore (s := s) (ρ := later.services) later answers rfl
  rw [hrestore] at h
  obtain ⟨state, image, hrunning, _, hafter⟩ := h
  rw [← captured_restored_iff hof, Snapshot.Restored, show after.services = _ from hafter]
  constructor
  . intro ⟨service, hservice, hcaptured, _⟩
    rw [Registry.set_self] at hservice
    rw [← Option.some.inj hservice] at hcaptured
    exact hcaptured
  . intro hcaptured
    exact ⟨_, Registry.set_self _ _ _, hcaptured, hrunning⟩

theorem of_snapshot {before : Machine} {asked : List Reply} {s : Snapshot}
    (hsnapshot : (snapshot name before asked).1 = .ok s) : ∃ c, s.Of c := by
  have h : Program.Ends _ _ _ (snapshot name before asked) :=
    returns_snapshot (ρ := before.services) before asked rfl
  rcases hr : snapshot name before asked with ⟨_ | _ | _, m, rest⟩
  . rw [hr] at h hsnapshot
    obtain ⟨service, _, _, _, hof, _⟩ := h
    rw [← Outcome.ok.inj hsnapshot]
    exact ⟨service.config, hof⟩
  . rw [hr] at hsnapshot
    cases hsnapshot
  . rw [hr] at hsnapshot
    cases hsnapshot

/--
A restored service is as in its snapshot, if and only if its failure policy had nothing set that the
snapshot reports as null.
-/
theorem restore_undoes (before later : Machine) (name : String) (asked answers : List Reply) (s : Snapshot)
    (hsnapshot : (snapshot name before asked).1 = .ok s)
    (hrestore : (restore s later answers).1 = .ok ())
    : s.Restored (restore s later answers).2.1 ↔ s.Clears (later.services s.name) := by
  obtain ⟨c, hof⟩ := of_snapshot hsnapshot
  rcases hr : restore s later answers with ⟨outcome, after, rest⟩
  rw [hr] at hrestore
  cases hrestore
  apply restored_iff hof hr

theorem nothing_unset : ([] : List FailureAction) = [] → 0 = 0 := fun _ => rfl

-- A native service as it is created without a failure policy.
def plainService : Service where
  config :=
    { command := "\"C:\\hik\\hik-sdk-http-bridge.exe\" service"
      display := "hikbridge"
      account := "LocalSystem"
      type := ownProcess
      start := .auto
      error := .normal
      failures := { unset := nothing_unset } }

def machineWith (service : Option Service) : Machine where
  services name := if name = nativeName then service else none
  places _ := none
  source := []
  original := []

def plainSnapshot : Snapshot where
  name := nativeName
  command := plainService.config.command
  display := "hikbridge"
  account := "LocalSystem"
  group := ""
  description := ""
  dependencies := []
  type := ownProcess
  start := .auto
  error := .normal
  running := false
  delayed := false
  failureFlag := false
  failures := some { resetPeriod := 0, rebootMessage := none, command := none, actions := none }
  kind := .Native
  exe := ""

theorem snapshot_plainService
    : (snapshot nativeName (machineWith (some plainService)) (List.replicate 20 {})).1 = .ok plainSnapshot := by
  decide +kernel

theorem restore_undoes_absent
    : plainSnapshot.Restored (restore plainSnapshot (machineWith none) (List.replicate 20 {})).2.1 ↔
        plainSnapshot.Clears ((machineWith none).services plainSnapshot.name) :=
  restore_undoes (machineWith (some plainService)) (machineWith none) nativeName (List.replicate 20 {})
    (List.replicate 20 {}) plainSnapshot snapshot_plainService (by decide +kernel)

-- The service as the installation script leaves it, stopped again.
def installedService : Service where
  config := { plainService.config with
    failures :=
      { resetPeriod := 86400, actions := [⟨1, 5000⟩, ⟨1, 30000⟩, ⟨1, 60000⟩], unset := by decide } }

theorem restore_undoes_installed
    : (snapshot nativeName (machineWith (some plainService)) (List.replicate 20 {})).1 = .ok plainSnapshot ∧
      (restore plainSnapshot (machineWith (some installedService)) (List.replicate 20 {})).1 = .ok () ∧
      ¬ plainSnapshot.Restored
        (restore plainSnapshot (machineWith (some installedService)) (List.replicate 20 {})).2.1 := by
  refine ⟨snapshot_plainService, by decide +kernel, ?_⟩
  intro ⟨service, hservice, hcaptured, _⟩
  have hactions := (hcaptured.failures _ rfl).actions
  have hkept : (restore plainSnapshot (machineWith (some installedService)) (List.replicate 20 {})).2.1.services
      nativeName = some installedService := by
    decide +kernel
  rw [show plainSnapshot.name = nativeName from rfl, hkept] at hservice
  rw [← Option.some.inj hservice] at hactions
  exact absurd hactions (by decide)

end HikBridge.Upgrade
