import HikBridge.Install.CommandLines
import HikBridge.Install.Commands

/-!
This module contains what the script knows of the machine on which it started when it has taken its
snapshot, and what the steps after it leave of that.
-/

namespace HikBridge.Install

open Program

section Effects

variable {s : Script} {name other : Name} {service : Option Service} {progress : Progress}

@[simp]
theorem service_setService
    : (s.setService name service).service other = if other = name then service else s.service other := by
  simp [Script.setService, Script.service, Function.update_apply]

theorem up_setService (h : ∀ x ∈ service, x.state.up = true → ∃ y ∈ s.service name, y.state.up = true)
    (hup : (s.setService name service).machine.up other) : s.machine.up other := by
  obtain ⟨x, hx, hstate⟩ := hup
  change x ∈ (s.setService name service).service other at hx
  rw [service_setService] at hx
  split at hx
  . next heq =>
    subst heq
    exact h x hx hstate
  . exact ⟨x, hx, hstate⟩

theorem up_of_next {startedHere : Bool} {state : ServiceState}
    (h : (state.next startedHere progress).up = true) : state.up = true := by
  revert h
  cases startedHere
  all_goals
    cases progress
    all_goals
      cases state
      all_goals decide

theorem up_advance (h : (s.advance name progress).machine.up other) : s.machine.up other := by
  apply up_setService _ h
  intro x hx hstate
  unfold Script.next at hx
  split at hx
  . cases hx
  . obtain ⟨y, hy, rfl⟩ := Option.map_eq_some_iff.mp hx
    exact ⟨y, hy, up_of_next hstate⟩

theorem up_stop (h : (s.stop name).machine.up other) : s.machine.up other := by
  apply up_setService _ h
  intro x hx hstate
  obtain ⟨y, _, rfl⟩ := Option.map_eq_some_iff.mp hx
  cases hstate

def Service.atRest (service : Service) : Service := { service with state := .stopped }

theorem next_unmarked (h : s.marked name = false)
    : s.next name progress = (s.service name).map fun service =>
        { service with state := service.state.next (s.startedHere name) progress } := by
  unfold Script.next
  rw [if_neg]
  simp [h]

end Effects

section Knowledge

variable {before : Machine} {name other : Name} {s : Script} {service : Option Service}

structure Untouched (before : Machine) (name : Name) (s : Script) : Prop where
  same : (s.service name).map Service.atRest = (before.service name).map Service.atRest
  down : s.machine.up name → before.up name
  startedHere : s.startedHere name = false
  marked : s.marked name = false

theorem Untouched.congr {t : Script} (h : Untouched before name s) (hservice : t.service name = s.service name)
    (hstarted : t.startedHere name = s.startedHere name) (hmarked : t.marked name = s.marked name)
    : Untouched before name t := by
  refine ⟨?_, ?_, ?_, ?_⟩
  . rw [hservice]
    exact h.same
  . rintro ⟨x, hx, hstate⟩
    change x ∈ t.service name at hx
    rw [hservice] at hx
    exact h.down ⟨x, hx, hstate⟩
  . rw [hstarted]
    exact h.startedHere
  . rw [hmarked]
    exact h.marked

theorem Untouched.setService (h : Untouched before name s)
    (hsame : other = name → service.map Service.atRest = (s.service name).map Service.atRest)
    (hdown : (s.setService other service).machine.up name → s.machine.up name)
    : Untouched before name (s.setService other service) := by
  refine ⟨?_, fun hup => h.down (hdown hup), h.startedHere, h.marked⟩
  rw [service_setService]
  split
  . next heq =>
    rw [hsame heq.symm]
    exact h.same
  . exact h.same

theorem Untouched.advance (h : Untouched before name s) {progress : Progress}
    : Untouched before name (s.advance other progress) := by
  apply h.setService _ up_advance
  rintro rfl
  rw [next_unmarked h.marked, Option.map_map]
  rfl

theorem Untouched.stop (h : Untouched before name s) : Untouched before name (s.stop other) := by
  apply h.setService _ up_stop
  rintro rfl
  rw [Option.map_map]
  rfl

theorem Untouched.setOther (h : Untouched before name s) (hne : name ≠ other)
    : Untouched before name (s.setService other service) := by
  refine h.congr (t := s.setService other service) ?_ rfl rfl
  rw [service_setService, if_neg hne]

theorem Untouched.started (h : Untouched before name s) (hne : name ≠ other)
    : Untouched before name (s.started other) :=
  (h.setOther hne).congr rfl (Function.update_of_ne hne _ _) rfl

theorem Untouched.delete (h : Untouched before name s) (hne : name ≠ other)
    : Untouched before name (s.delete other) :=
  h.congr rfl rfl (Function.update_of_ne hne _ _)

theorem Untouched.registration (h : Untouched before name s)
    : s.machine.registration name = before.registration name := by
  have hsame := congrArg (Option.map Service.registration) h.same
  rw [Option.map_map, Option.map_map] at hsame
  exact hsame

end Knowledge

section Snapshot

variable {codePage : Char → List Char} {before : Machine} {name : Name} {s : Script} {E : Label → Script → Prop}

structure Steady (before : Machine) (s : Script) : Prop where
  untouched : ∀ name, Untouched before name s
  runs : ∀ name, before.runs name → s.machine.runs name
  task : s.machine.task = before.task
  changed : s.changed = false
  created : s.created = false

theorem Steady.advance (h : Steady before s) {progress : Progress} : Steady before (s.advance name progress) := by
  refine ⟨fun other => (h.untouched other).advance, ?_, h.task, h.changed, h.created⟩
  intro other hother
  obtain ⟨x, hx, hstate⟩ := h.runs other hother
  by_cases hname : other = name
  . subst hname
    have hmarked := (h.untouched other).marked
    have hidle := (h.untouched other).startedHere
    refine ⟨{ x with state := x.state.next false progress }, ?_, ?_⟩
    . show _ ∈ (s.advance other progress).service other
      unfold Script.advance
      rw [service_setService, if_pos rfl, next_unmarked hmarked, hidle]
      exact Option.mem_map_of_mem _ hx
    . rw [hstate]
      cases progress
      all_goals rfl
  . refine ⟨x, ?_, hstate⟩
    show _ ∈ (s.advance name progress).service other
    unfold Script.advance
    rw [service_setService, if_neg hname]
    exact hx

theorem Steady.congr {t : Script} (h : Steady before s) (hmachine : t.machine = s.machine)
    (hstarted : t.startedHere = s.startedHere) (hmarked : t.marked = s.marked) (hchanged : t.changed = s.changed)
    (hcreated : t.created = s.created) : Steady before t := by
  refine ⟨fun name => ?_, ?_, ?_, ?_, ?_⟩
  . apply (h.untouched name).congr
    . unfold Script.service
      rw [hmachine]
    . rw [hstarted]
    . rw [hmarked]
  . rw [hmachine]
    exact h.runs
  . rw [hmachine]
    exact h.task
  . rw [hchanged]
    exact h.changed
  . rw [hcreated]
    exact h.created

theorem steady_initial : Steady before (Script.initial before) :=
  ⟨fun _ => ⟨rfl, id, rfl, rfl⟩, fun _ => id, rfl, rfl, rfl⟩

theorem Steady.observed : Observed (Steady before) name :=
  ⟨fun _ _ hs => hs.advance, fun _ _ hs => hs.congr rfl rfl rfl rfl rfl⟩

def SavedTask (codePage : Char → List Char) (before : Machine) (name : Name) (s : Script) : Prop :=
  s.xml name = (before.task name).map (Task.redirected codePage)

def NotedRegistration (codePage : Char → List Char) (before : Machine) (s : Script) : Prop :=
  ∀ service ∈ before.service .hikbridge, s.oldImage = readImage codePage service ∧
    ∃ delayed, readStart delayed service.start = some s.oldStart ∧
      (delayed = true → service.start = .delayedAuto) ∧
      (service.start = .delayedAuto → delayed = false → Entry.unread ∈ s.trace)

structure Noted (codePage : Char → List Char) (before : Machine) (s : Script) : Prop where
  oldExists : s.oldExists = (before.service .hikbridge).isSome
  runs : before.runs .hikbridge → s.oldRunning = true
  up : s.oldRunning = true → before.up .hikbridge
  registration : NotedRegistration codePage before s

theorem Noted.log {entry : Entry} (h : Noted codePage before s) : Noted codePage before (s.log entry) := by
  refine ⟨h.oldExists, h.runs, h.up, fun service hservice => ?_⟩
  obtain ⟨himage, delayed, hstart, hyes, hunread⟩ := h.registration service hservice
  exact ⟨himage, delayed, hstart, hyes, fun hdelayed hfalse => List.mem_cons_of_mem _ (hunread hdelayed hfalse)⟩

structure NotedLegacy (before : Machine) (s : Script) : Prop where
  runs : before.runs .HikSdkHttpBridge → s.legacyRunning = true
  up : s.legacyRunning = true → before.up .HikSdkHttpBridge

theorem triple_regDelayed
    : Triple (Steady before) regDelayed (fun delayed s => Steady before s ∧
        ∀ service ∈ before.service .hikbridge, (delayed = true → service.start = .delayedAuto) ∧
          (service.start = .delayedAuto → delayed = false → Entry.unread ∈ s.trace))
        E (fun _ => True) := by
  apply triple_bind (triple_ask (fun _ _ => trivial) fun _ _ => id)
  intro t
  apply triple_bind (R := fun r s => s = r ∧ Steady before r) (triple_inspect fun _ hs => ⟨rfl, hs⟩)
  intro r
  have hstart : Steady before r → ∀ service ∈ before.service .hikbridge, ∃ x ∈ r.service .hikbridge,
      x.start = service.start := by
    intro hr service hservice
    have hsame := (hr.untouched .hikbridge).same
    rw [hservice] at hsame
    obtain ⟨x, hx, hrest⟩ := Option.map_eq_some_iff.mp hsame
    injection hrest with _ _ hstart
    exact ⟨x, hx, hstart⟩
  apply triple_ite
  . intro _
    apply triple_pure
    rintro s ⟨rfl, hs⟩
    refine ⟨hs, fun service hservice => ?_⟩
    obtain ⟨x, hx, heq⟩ := hstart hs service hservice
    rw [hx, ← heq, Option.any_some, decide_eq_true_eq, decide_eq_false_iff_not]
    exact ⟨id, fun hdelayed hne => absurd hdelayed hne⟩
  . intro _
    apply triple_bind (R := fun _ s => Steady before s ∧ Entry.unread ∈ s.trace)
    . apply triple_update
      rintro s ⟨rfl, hs⟩
      exact ⟨hs.congr rfl rfl rfl rfl rfl, List.mem_cons_self⟩
    . intro _
      apply triple_pure
      intro s ⟨hs, hunread⟩
      exact ⟨hs, fun _ _ => ⟨by simp, fun _ _ => hunread⟩⟩

theorem triple_snapshotService
    : Triple (Steady before) (snapshotService codePage)
        (fun ok s => Steady before s ∧ (ok = true → NotedRegistration codePage before s)) E (fun _ => True) := by
  have hkey : Triple (Steady before) regKey (fun _ => Steady before) E (fun _ => True) :=
    triple_command (fun _ _ => trivial) (fun _ hs _ => hs) fun _ => id
  have hfailed : Triple (τ := Tick) (Steady before) (pure false)
      (fun ok s => Steady before s ∧ (ok = true → NotedRegistration codePage before s)) E (fun _ => True) :=
    triple_pure fun s hs => ⟨hs, by simp⟩
  unfold snapshotService
  apply triple_bind hkey
  intro _
  apply triple_ite _ fun _ => hfailed
  intro _
  apply triple_bind hkey
  intro _
  apply triple_ite _ fun _ => hfailed
  intro _
  apply triple_bind hkey
  intro _
  apply triple_ite _ fun _ => hfailed
  intro _
  apply triple_bind triple_regDelayed
  intro delayed
  apply triple_bind (R := fun r s => s = r ∧ Steady before r ∧ ∀ service ∈ before.service .hikbridge,
      (delayed = true → service.start = .delayedAuto) ∧
        (service.start = .delayedAuto → delayed = false → Entry.unread ∈ r.trace))
    (triple_inspect fun _ hs => ⟨rfl, hs⟩)
  intro r
  have hstays : Triple (τ := Tick) (fun s => s = r ∧ Steady before r ∧ ∀ service ∈ before.service .hikbridge,
      (delayed = true → service.start = .delayedAuto) ∧
        (service.start = .delayedAuto → delayed = false → Entry.unread ∈ r.trace)) (pure false)
      (fun ok s => Steady before s ∧ (ok = true → NotedRegistration codePage before s)) E (fun _ => True) := by
    apply hfailed.pre
    rintro s ⟨rfl, hs, _⟩
    exact hs
  split
  . exact hstays
  . next x hx =>
    split
    . exact hstays
    . next start hread =>
      apply triple_ite (fun _ => hstays)
      intro _
      apply triple_bind (R := fun _ s => Steady before s ∧ NotedRegistration codePage before s)
      . apply triple_update
        rintro s ⟨rfl, hs, hdelayed⟩
        refine ⟨hs.congr rfl rfl rfl rfl rfl, fun service hservice => ?_⟩
        have hsame := (hs.untouched .hikbridge).same
        rw [hx, hservice] at hsame
        have hrest : x.atRest = service.atRest := Option.some.inj hsame
        have hstart : x.start = service.start := by
          show x.atRest.start = service.atRest.start
          rw [hrest]
        refine ⟨?_, delayed, hstart ▸ hread, hdelayed service hservice⟩
        show readImage codePage x.atRest = readImage codePage service.atRest
        rw [hrest]
      . intro _
        apply triple_pure
        intro s ⟨hs, hnoted⟩
        exact ⟨hs, fun _ => hnoted⟩

theorem keeps_snapshotService {K : Script → Prop} (hlog : ∀ s, K s → K (s.log .unread))
    (hset : ∀ s image start, K s → K { s with oldImage := image, oldStart := start })
    : Keeps K (snapshotService codePage) := by
  have hkey : Keeps K regKey := keeps_command fun _ hs _ => hs
  have hdelayed : Keeps K regDelayed := by
    apply keeps_bind keeps_ask
    intro t
    apply keeps_bind keeps_inspect
    intro s
    apply keeps_ite keeps_pure
    exact keeps_bind (keeps_update hlog) fun _ => keeps_pure
  unfold snapshotService
  apply keeps_bind hkey
  intro _
  apply keeps_ite _ keeps_pure
  apply keeps_bind hkey
  intro _
  apply keeps_ite _ keeps_pure
  apply keeps_bind hkey
  intro _
  apply keeps_ite _ keeps_pure
  apply keeps_bind hdelayed
  intro _
  apply keeps_bind keeps_inspect
  intro s
  split
  . exact keeps_pure
  . split
    . exact keeps_pure
    . apply keeps_ite keeps_pure
      exact keeps_bind (keeps_update fun s => hset s _ _) fun _ => keeps_pure

structure Opened (codePage : Char → List Char) (before : Machine) (s : Script) : Prop where
  steady : Steady before s
  saved : ∀ name, SavedTask codePage before name s
  oldExists : s.oldExists = false
  oldRunning : s.oldRunning = false
  legacyRunning : s.legacyRunning = false

theorem Opened.observed : Observed (Opened codePage before) name :=
  ⟨fun progress s hs => ⟨Steady.observed.advance progress s hs.steady, hs.saved, hs.oldExists, hs.oldRunning,
      hs.legacyRunning⟩,
    fun state s hs => ⟨Steady.observed.report state s hs.steady, hs.saved, hs.oldExists, hs.oldRunning,
      hs.legacyRunning⟩⟩

theorem Steady.not_runs_of_none (h : Steady before s) (hnone : s.service name = none) : ¬ before.runs name := by
  intro hruns
  obtain ⟨x, hx, _⟩ := h.runs name hruns
  change x ∈ s.service name at hx
  rw [hnone] at hx
  cases hx

theorem Steady.before_none (h : Steady before s) : (s.service name).isSome = (before.service name).isSome := by
  have hsame := congrArg Option.isSome (h.untouched name).same
  rwa [Option.isSome_map, Option.isSome_map] at hsame

theorem Steady.running_iff (h : Steady before s) {state : ServiceState}
    (hreport : Report.Says (.present state) (s.service name))
    : (before.runs name → decide (state = .running) = true) ∧
        (decide (state = .running) = true → before.up name) := by
  obtain ⟨x, hx, hstate⟩ := hreport
  constructor
  . intro hruns
    obtain ⟨y, hy, hrunning⟩ := h.runs name hruns
    have heq : y = x := Option.some.inj (hy.symm.trans hx)
    rw [← hstate, ← heq, hrunning]
    rfl
  . intro hrunning
    apply (h.untouched name).down
    refine ⟨x, hx, ?_⟩
    rw [hstate, of_decide_eq_true hrunning]
    rfl

theorem triple_snapshotHikbridge
    : Triple (Opened codePage before) (snapshotHikbridge codePage)
        (fun ok s => ok = true → Steady before s ∧ (∀ name, SavedTask codePage before name s) ∧
          s.legacyRunning = false ∧ Noted codePage before s)
        E (fun _ => True) := by
  apply triple_bind (Opened.observed.query.conseq (fun _ => id) (fun _ _ => id) (fun _ _ => id)
    fun _ _ => trivial)
  intro r
  cases r with
  | failed => exact triple_pure fun _ _ => by simp
  | absent =>
    apply triple_pure
    intro s ⟨hs, hnone⟩ _
    have hsome : (s.service .hikbridge).isSome = _ := hs.steady.before_none
    rw [hnone] at hsome
    refine ⟨hs.steady, hs.saved, hs.legacyRunning, ?_⟩
    constructor
    . rw [hs.oldExists, ← hsome]
      rfl
    . intro hruns
      exact absurd hruns (hs.steady.not_runs_of_none hnone)
    . rw [hs.oldRunning]
      simp
    . intro service hservice
      rw [hservice] at hsome
      cases hsome
  | present state =>
    apply triple_bind (R := fun _ s => Steady before s ∧ (∀ name, SavedTask codePage before name s) ∧
      s.legacyRunning = false ∧ s.oldExists = (before.service .hikbridge).isSome ∧
      (before.runs .hikbridge → s.oldRunning = true) ∧ (s.oldRunning = true → before.up .hikbridge))
    . apply triple_update
      intro s ⟨hs, hreport⟩
      have hrunning := hs.steady.running_iff hreport
      have hsome : (s.service .hikbridge).isSome = _ := hs.steady.before_none
      obtain ⟨x, hx, _⟩ := hreport
      rw [hx] at hsome
      exact ⟨hs.steady.congr rfl rfl rfl rfl rfl, hs.saved, hs.legacyRunning, hsome, hrunning.1, hrunning.2⟩
    . intro _
      have hframe : Keeps (fun s => (∀ name, SavedTask codePage before name s) ∧
          s.legacyRunning = false ∧ s.oldExists = (before.service .hikbridge).isSome ∧
          (before.runs .hikbridge → s.oldRunning = true) ∧ (s.oldRunning = true → before.up .hikbridge))
          (snapshotService codePage) :=
        keeps_snapshotService (fun _ => id) fun _ _ _ => id
      apply (triple_snapshotService.and hframe).conseq (E := E) (fun _ => id) _ (fun _ _ hs => hs.1)
        fun _ _ => trivial
      intro ok s ⟨⟨hs, hnoted⟩, hsaved, hlegacy, hexists, hruns, hup⟩ hok
      exact ⟨hs, hsaved, hlegacy, ⟨hexists, hruns, hup, hnoted hok⟩⟩

structure Remembered (codePage : Char → List Char) (before : Machine) (s : Script) : Prop where
  saved : ∀ name, SavedTask codePage before name s
  absent : ∀ name, before.task name = none → s.task name = none
  noted : Noted codePage before s
  legacy : NotedLegacy before s

structure Prepared (codePage : Char → List Char) (before : Machine) (s : Script) : Prop where
  remembered : Remembered codePage before s
  untouched : ∀ name, Untouched before name s
  changed : s.changed = false
  created : s.created = false

theorem triple_snapshotLegacy
    : Triple (fun s => Steady before s ∧ (∀ name, SavedTask codePage before name s) ∧
          s.legacyRunning = false ∧ Noted codePage before s)
        snapshotLegacy (fun ok s => ok = true → Prepared codePage before s) E (fun _ => True) := by
  have hprepared : ∀ s, Steady before s → (∀ name, SavedTask codePage before name s) →
      Noted codePage before s → NotedLegacy before s → Prepared codePage before s := by
    intro s hs hsaved hnoted hlegacy
    refine ⟨⟨hsaved, ?_, hnoted, hlegacy⟩, hs.untouched, hs.changed, hs.created⟩
    intro name hnone
    unfold Script.task
    rw [hs.task, hnone]
  have hobserved : Observed (fun s => Steady before s ∧ (∀ name, SavedTask codePage before name s) ∧
      s.legacyRunning = false ∧ Noted codePage before s) .HikSdkHttpBridge := by
    constructor
    . intro progress s ⟨hs, hsaved, hlegacy, hnoted⟩
      exact ⟨hs.advance, hsaved, hlegacy, ⟨hnoted.oldExists, hnoted.runs, hnoted.up, hnoted.registration⟩⟩
    . intro state s ⟨hs, hsaved, hlegacy, hnoted⟩
      exact ⟨hs.congr rfl rfl rfl rfl rfl, hsaved, hlegacy, hnoted.log⟩
  apply triple_bind (hobserved.query.conseq (fun _ => id) (fun _ _ => id) (fun _ _ => id)
    fun _ _ => trivial)
  intro r
  cases r with
  | failed => exact triple_pure fun _ _ => by simp
  | absent =>
    apply triple_pure
    intro s ⟨⟨hs, hsaved, hlegacy, hnoted⟩, hnone⟩ _
    apply hprepared s hs hsaved hnoted
    constructor
    . intro hruns
      exact absurd hruns (hs.not_runs_of_none hnone)
    . rw [hlegacy]
      simp
  | present state =>
    apply triple_bind (R := fun _ s => Prepared codePage before s)
    . apply triple_update
      intro s ⟨⟨hs, hsaved, _, hnoted⟩, hreport⟩
      have hrunning := hs.running_iff hreport
      exact hprepared _ (hs.congr rfl rfl rfl rfl rfl) hsaved
        ⟨hnoted.oldExists, hnoted.runs, hnoted.up, hnoted.registration⟩ ⟨hrunning.1, hrunning.2⟩
    . intro _
      exact triple_command (fun _ _ => trivial) (fun _ hs _ _ => hs) fun _ _ => by simp

theorem triple_snapshot (hfinish : ∀ s, E .finish s)
    : Triple (fun s => s = Script.initial before) (snapshot codePage)
        (fun _ s => Prepared codePage before s) E (fun _ => True) := by
  have hsave : ∀ name s, Steady before s → Steady before (s.saveTask codePage name) :=
    fun _ _ hs => hs.congr rfl rfl rfl rfl rfl
  have hsaved : ∀ name s, Steady before s → s.xml name = (s.task name).map (Task.redirected codePage) →
      SavedTask codePage before name s := by
    intro name s hs hxml
    unfold SavedTask
    rw [hxml, Script.task, hs.task]
  apply triple_bind (R := fun _ s => ((Steady before s ∧ s.oldExists = false ∧ s.oldRunning = false ∧
    s.legacyRunning = false) ∧ SavedTask codePage before .hikbridge s) ∧ s.xml .HikSdkHttpBridge = none)
  . apply triple_orGoto (triple_snapshotTask (I := fun s => (Steady before s ∧ s.oldExists = false ∧
      s.oldRunning = false ∧ s.legacyRunning = false) ∧ s.xml .HikSdkHttpBridge = none) _ |>.conseq _
        (fun _ _ => id) (fun _ _ => id) fun _ _ => trivial)
    . intro s ⟨⟨hs, hxml⟩, htask⟩
      exact ⟨⟨hs, hsaved _ s hs.1 (htask rfl)⟩, hxml⟩
    . intro s _
      exact hfinish s
    . intro s ⟨⟨hs, hrest⟩, hxml⟩
      exact ⟨⟨hsave _ s hs, hrest⟩, hxml⟩
    . rintro s rfl
      exact ⟨⟨⟨steady_initial, rfl, rfl, rfl⟩, rfl⟩, rfl⟩
  intro _
  apply triple_bind (R := fun _ => Opened codePage before)
  . apply triple_orGoto (triple_snapshotTask (I := fun s => (Steady before s ∧ s.oldExists = false ∧
      s.oldRunning = false ∧ s.legacyRunning = false) ∧ SavedTask codePage before .hikbridge s) _ |>.conseq
        (fun _ => id) (fun _ _ => id) (fun _ _ => id) fun _ _ => trivial)
    . intro s ⟨⟨⟨hs, hexists, hrunning, hlegacy⟩, hfirst⟩, htask⟩
      refine ⟨hs, fun name => ?_, hexists, hrunning, hlegacy⟩
      cases name with
      | hikbridge => exact hfirst
      | HikSdkHttpBridge => exact hsaved _ s hs (htask rfl)
    . intro s _
      exact hfinish s
    . intro s ⟨⟨hs, hrest⟩, hfirst⟩
      exact ⟨⟨hsave _ s hs, hrest⟩, hfirst⟩
  intro _
  apply triple_bind (R := fun _ s => Steady before s ∧ (∀ name, SavedTask codePage before name s) ∧
    s.legacyRunning = false ∧ Noted codePage before s)
  . exact triple_orGoto triple_snapshotHikbridge (fun s hs => hs rfl) fun s _ => hfinish s
  intro _
  exact triple_orGoto triple_snapshotLegacy (fun s hs => hs rfl) fun s _ => hfinish s

end Snapshot

section Prepared

variable {codePage : Char → List Char} {before : Machine} {name : Name} {s t : Script}

theorem Remembered.step (h : Remembered codePage before s) (hxml : t.xml = s.xml)
    (habsent : ∀ name, s.task name = none → t.task name = none)
    (hvariables : (t.oldExists, t.oldRunning, t.legacyRunning, t.oldImage, t.oldStart)
      = (s.oldExists, s.oldRunning, s.legacyRunning, s.oldImage, s.oldStart))
    (htrace : s.trace ⊆ t.trace) : Remembered codePage before t := by
  simp only [Prod.mk.injEq] at hvariables
  obtain ⟨hexists, hrunning, hlegacy, himage, hstart⟩ := hvariables
  refine ⟨fun name => ?_, fun name hnone => habsent name (h.absent name hnone), ?_, ?_⟩
  . unfold SavedTask
    rw [hxml]
    exact h.saved name
  . refine ⟨hexists ▸ h.noted.oldExists, hrunning ▸ h.noted.runs, hrunning ▸ h.noted.up, ?_⟩
    intro service hservice
    obtain ⟨hsame, delayed, hread, hyes, hunread⟩ := h.noted.registration service hservice
    exact ⟨himage ▸ hsame, delayed, hstart ▸ hread, hyes,
      fun hdelayed hfalse => htrace (hunread hdelayed hfalse)⟩
  . exact ⟨hlegacy ▸ h.legacy.runs, hlegacy ▸ h.legacy.up⟩

theorem Remembered.log {entry : Entry} (h : Remembered codePage before s)
    : Remembered codePage before (s.log entry) :=
  h.step rfl (fun _ => id) rfl (List.subset_cons_self _ _)

theorem Remembered.setService {service : Option Service} (h : Remembered codePage before s)
    : Remembered codePage before (s.setService name service) :=
  h.step rfl (fun _ => id) rfl (List.Subset.refl _)

theorem Remembered.setTask {task : Option Task} (h : Remembered codePage before s)
    (htask : s.task name = none → task = none) : Remembered codePage before (s.setTask name task) := by
  refine h.step (t := s.setTask name task) rfl ?_ rfl (List.Subset.refl _)
  intro other hnone
  show Function.update s.machine.task name task other = none
  by_cases hname : other = name
  . subst hname
    rw [Function.update_self]
    exact htask hnone
  . rw [Function.update_of_ne hname]
    exact hnone

theorem Remembered.disableTask (h : Remembered codePage before s) : Remembered codePage before (s.disableTask name) := by
  apply h.setTask
  intro hnone
  rw [hnone]
  rfl

theorem Remembered.createTask (h : Remembered codePage before s) : Remembered codePage before (s.createTask name) := by
  refine ⟨h.saved, ?_, ⟨h.noted.oldExists, h.noted.runs, h.noted.up, h.noted.registration⟩,
    ⟨h.legacy.runs, h.legacy.up⟩⟩
  intro other hnone
  show Function.update s.machine.task name (s.xml name) other = none
  by_cases hname : other = name
  . subst hname
    rw [Function.update_self, h.saved other, hnone]
    rfl
  . rw [Function.update_of_ne hname]
    exact h.absent other hnone

theorem Prepared.observed : Observed (Prepared codePage before) name :=
  ⟨fun _ _ hs => ⟨hs.remembered.setService, fun other => (hs.untouched other).advance, hs.changed, hs.created⟩,
    fun _ _ hs => ⟨hs.remembered.log, fun other => (hs.untouched other).congr rfl rfl rfl, hs.changed, hs.created⟩⟩

theorem Prepared.stop (h : Prepared codePage before s) : Prepared codePage before (s.stop name) :=
  ⟨h.remembered.setService, fun other => (h.untouched other).stop, h.changed, h.created⟩

theorem Prepared.disableTask (h : Prepared codePage before s) : Prepared codePage before (s.disableTask name) :=
  ⟨h.remembered.disableTask, fun other => (h.untouched other).congr rfl rfl rfl, h.changed, h.created⟩

end Prepared

end HikBridge.Install
