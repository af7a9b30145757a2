import HikBridge.Install.Snapshot

/-!
This module contains the main line from the snapshot to the observed `RUNNING`, and that a rollback that
succeeds brings back the machine on which the script started.
-/

namespace HikBridge.Install

open Program

/--
Two machines agree on what a rollback restores. A service that was running is running again or its start
was accepted, and one that was neither is neither.
-/
structure Restored (before after : Machine) : Prop where
  registration : after.registration .hikbridge = before.registration .hikbridge
  runs : ∀ name, before.runs name → after.up name
  down : ∀ name, after.up name → before.up name
  task : after.task = before.task

/--
What the backup of a run has to hold for its rollback. A hikbridge that was reconfigured needs an image
path that comes back as it was and, if it starts delayed, an answer to the query of `DelayedAutoStart`.
-/
structure Recoverable (codePage : Char → List Char) (before : Machine) (trace : List Entry) : Prop where
  image : Entry.reconfigured ∈ trace → ∀ service ∈ before.service .hikbridge, Rereadable codePage service.image
  start : Entry.reconfigured ∈ trace → ∀ service ∈ before.service .hikbridge,
    service.start = .delayedAuto → Entry.unread ∉ trace
  task : ∀ name, ∀ task ∈ before.task name, Survives codePage task.text

theorem Recoverable.past {codePage : Char → List Char} {before : Machine} {entry : Entry} {trace : List Entry}
    (h : Recoverable codePage before (entry :: trace)) : Recoverable codePage before trace :=
  ⟨fun hmem => h.image (List.mem_cons_of_mem _ hmem),
    fun hmem service hservice hdelayed hunread =>
      h.start (List.mem_cons_of_mem _ hmem) service hservice hdelayed (List.mem_cons_of_mem _ hunread),
    h.task⟩

variable {codePage : Char → List Char} {p : Package} {before : Machine} {name : Name} {s : Script}
  {E : Label → Script → Prop}

section Replace

def Registered (p : Package) (s : Script) : Prop :=
  ∃ service ∈ s.service .hikbridge, service.image = p.image ∧ service.start = .auto

structure Replaced (codePage : Char → List Char) (p : Package) (before : Machine) (s : Script) : Prop where
  remembered : Remembered codePage before s
  legacy : Untouched before .HikSdkHttpBridge s
  created : s.created = (before.service .hikbridge).isNone
  reconfigured : s.created = false → Entry.reconfigured ∈ s.trace
  registered : Registered p s
  marked : s.marked .hikbridge = false

theorem Registered.change {f : Service → Service} (h : Registered p s)
    (hf : ∀ service, (f service).registration = service.registration)
    : Registered p (s.changeService name f) := by
  obtain ⟨x, hx, himage, hstart⟩ := h
  have hfx := hf x
  simp only [Service.registration, Prod.mk.injEq] at hfx
  by_cases hname : Name.hikbridge = name
  . refine ⟨f x, ?_, hfx.1.trans himage, hfx.2.trans hstart⟩
    unfold Script.changeService
    rw [service_setService, if_pos hname, ← hname]
    exact Option.mem_map_of_mem f hx
  . refine ⟨x, ?_, himage, hstart⟩
    unfold Script.changeService
    rw [service_setService, if_neg hname]
    exact hx

theorem Registered.advance {progress : Progress} (h : Registered p s) (hmarked : s.marked .hikbridge = false)
    : Registered p (s.advance name progress) := by
  by_cases hname : name = .hikbridge
  . subst hname
    unfold Script.advance
    rw [next_unmarked hmarked]
    exact h.change fun _ => rfl
  . obtain ⟨x, hx, hrest⟩ := h
    refine ⟨x, ?_, hrest⟩
    unfold Script.advance
    rw [service_setService, if_neg (Ne.symm hname)]
    exact hx

theorem Replaced.observed : Observed (Replaced codePage p before) name :=
  ⟨fun _ _ hs => ⟨hs.remembered.setService, hs.legacy.advance, hs.created, hs.reconfigured,
      hs.registered.advance hs.marked, hs.marked⟩,
    fun _ _ hs => ⟨hs.remembered.log, hs.legacy.congr rfl rfl rfl, hs.created,
      fun hcreated => List.mem_cons_of_mem _ (hs.reconfigured hcreated), hs.registered, hs.marked⟩⟩

theorem Replaced.started (h : Replaced codePage p before s) : Replaced codePage p before (s.started .hikbridge) :=
  ⟨h.remembered.step (t := s.started .hikbridge) rfl (fun _ => id) rfl (List.subset_cons_self _ _),
    h.legacy.started (by decide), h.created, fun hcreated => List.mem_cons_of_mem _ (h.reconfigured hcreated),
    h.registered.change fun _ => rfl, h.marked⟩

structure AtRollback (codePage : Char → List Char) (before : Machine) (s : Script) : Prop where
  remembered : Remembered codePage before s
  legacy : Untouched before .HikSdkHttpBridge s
  hikbridge : s.changed = false → Untouched before .hikbridge s
  created : s.changed = true → s.created = (before.service .hikbridge).isNone
  reconfigured : s.changed = true → s.created = false → Entry.reconfigured ∈ s.trace
  marked : s.marked .hikbridge = false

theorem Prepared.atRollback (h : Prepared codePage before s) : AtRollback codePage before s := by
  refine ⟨h.remembered, h.untouched .HikSdkHttpBridge, fun _ => h.untouched .hikbridge, ?_, ?_,
    (h.untouched .hikbridge).marked⟩
  . rw [h.changed]
    simp
  . rw [h.changed]
    simp

theorem Replaced.atRollback (h : Replaced codePage p before s) (hchanged : s.changed = true)
    : AtRollback codePage before s := by
  refine ⟨h.remembered, h.legacy, ?_, fun _ => h.created, fun _ => h.reconfigured, h.marked⟩
  rw [hchanged]
  simp

theorem triple_configureService
    : Triple (Prepared codePage before) (configureService p)
        (fun ok s => if ok then Replaced codePage p before s else AtRollback codePage before s) E
        (fun _ => True) := by
  apply triple_bind (R := fun r s => s = r ∧ Prepared codePage before r) (triple_inspect fun _ hs => ⟨rfl, hs⟩)
  intro r
  have hregistered : ∀ service : Service,
      Registered p (r.setService .hikbridge (some (service.registered p.image .auto))) := by
    intro service
    refine ⟨service.registered p.image .auto, ?_, rfl, rfl⟩
    rw [service_setService, if_pos rfl]
    rfl
  apply triple_ite
  . intro hexists
    apply triple_bind (R := fun ok s => if ok then Remembered codePage before s ∧
      Untouched before .HikSdkHttpBridge s ∧ s.created = (before.service .hikbridge).isNone ∧ Registered p s ∧
      s.marked .hikbridge = false else Prepared codePage before s)
    . apply triple_command (fun _ _ => trivial)
      . rintro s ⟨rfl, hs⟩ hpossible
        obtain ⟨x, hx⟩ : ∃ x, s.service .hikbridge = some x := by
          cases hservice : s.service .hikbridge with
          | none => simp [hservice] at hpossible
          | some x => exact ⟨x, rfl⟩
        have hcreated : s.created = (before.service .hikbridge).isNone := by
          have hsome := hs.remembered.noted.oldExists
          rw [hexists] at hsome
          rw [hs.created, Option.isNone_eq_false_iff.mpr hsome.symm]
        rw [hx, Option.bind_some, configured_updateLine]
        exact ⟨hs.remembered.setService, (hs.untouched _).setOther (by decide), hcreated, hregistered x,
          (hs.untouched _).marked⟩
      . rintro s ⟨rfl, hs⟩
        exact hs
    . intro ok
      apply triple_ite
      . rintro rfl
        apply triple_bind (R := fun _ => Replaced codePage p before)
        . apply triple_update
          intro s ⟨hremembered, hlegacy, hcreated, hregistered, hmarked⟩
          exact ⟨hremembered.log, hlegacy.congr rfl rfl rfl, hcreated, fun _ => List.mem_cons_self, hregistered,
            hmarked⟩
        . intro _
          exact triple_pure fun _ => id
      . intro hok
        apply triple_pure
        intro s hs
        rw [if_neg hok] at hs
        exact hs.atRollback
  . intro hexists
    apply triple_bind (R := fun ok s => if ok then Remembered codePage before s ∧
      Untouched before .HikSdkHttpBridge s ∧ before.service .hikbridge = none ∧ Registered p s ∧
      s.marked .hikbridge = false else Prepared codePage before s)
    . apply triple_command (fun _ _ => trivial)
      . rintro s ⟨rfl, hs⟩ _
        have hnone : before.service .hikbridge = none := by
          rw [← Option.not_isSome_iff_eq_none, ← hs.remembered.noted.oldExists]
          exact hexists
        rw [configured_createLine]
        exact ⟨hs.remembered.setService, (hs.untouched _).setOther (by decide), hnone, hregistered _,
          (hs.untouched _).marked⟩
      . rintro s ⟨rfl, hs⟩
        exact hs
    . intro ok
      apply triple_bind (R := fun _ s => if ok then Replaced codePage p before s else AtRollback codePage before s)
      . apply triple_update
        intro s hs
        cases ok with
        | true =>
          obtain ⟨hremembered, hlegacy, hnone, hregistered, hmarked⟩ := hs
          exact ⟨hremembered.step rfl (fun _ => id) rfl (List.Subset.refl _), hlegacy.congr rfl rfl rfl,
            (by rw [hnone]; rfl), (fun hfalse => by cases hfalse), hregistered, hmarked⟩
        | false =>
          have hrollback := Prepared.atRollback hs
          refine ⟨hrollback.remembered.step rfl (fun _ => id) rfl (List.Subset.refl _),
            hrollback.legacy.congr rfl rfl rfl, fun hchanged => (hrollback.hikbridge hchanged).congr rfl rfl rfl,
            ?_, (fun _ hfalse => by cases hfalse), hrollback.marked⟩
          intro hchanged
          exact absurd hchanged (by rw [hs.changed]; decide)
      . intro _
        exact triple_pure fun _ => id

def AtLabel (codePage : Char → List Char) (before : Machine) (label : Label) (s : Script) : Prop :=
  label = .rollback → AtRollback codePage before s

theorem Prepared.keep {m : Run Bool} (h : Keeps (Prepared codePage before) m)
    : Triple (Prepared codePage before) (orGoto .rollback m) (fun _ => Prepared codePage before)
        (AtLabel codePage before) (fun _ => True) :=
  (keeps_orGoto h).conseq (fun _ => id) (fun _ _ => id) (fun _ _ hs _ => hs.atRollback) fun _ _ => trivial

theorem Replaced.keep {m : Run Bool} (h : Keeps (fun s => Replaced codePage p before s ∧ s.changed = true) m)
    : Triple (fun s => Replaced codePage p before s ∧ s.changed = true) (orGoto .rollback m)
        (fun _ s => Replaced codePage p before s ∧ s.changed = true) (AtLabel codePage before)
        (fun _ => True) :=
  (keeps_orGoto h).conseq (fun _ => id) (fun _ _ => id) (fun _ _ hs _ => hs.1.atRollback hs.2)
    fun _ _ => trivial

theorem triple_replace
    : Triple (Prepared codePage before) (replace p)
        (fun _ s => Replaced codePage p before s ∧ s.changed = true) (AtLabel codePage before)
        (fun _ => True) := by
  have hpause : ∀ name, Keeps (Prepared codePage before) (pauseTask name) :=
    fun _ => keeps_pauseTask fun _ => Prepared.disableTask
  have hstop : ∀ name, Keeps (Prepared codePage before) (stopService name) :=
    fun _ => keeps_stopService Prepared.observed fun _ => Prepared.stop
  have hobserved : Observed (fun s => Replaced codePage p before s ∧ s.changed = true) .hikbridge :=
    ⟨fun progress s hs => ⟨Replaced.observed.advance progress s hs.1, hs.2⟩,
      fun state s hs => ⟨Replaced.observed.report state s hs.1, hs.2⟩⟩
  unfold replace
  apply triple_bind (Prepared.keep (hpause .hikbridge))
  intro _
  apply triple_bind (Prepared.keep (hpause .HikSdkHttpBridge))
  intro _
  apply triple_bind (Prepared.keep (hstop .HikSdkHttpBridge))
  intro _
  apply triple_bind (Prepared.keep (hstop .hikbridge))
  intro _
  apply triple_bind (R := fun _ => Replaced codePage p before)
  . exact triple_orGoto triple_configureService (fun _ => id) fun _ hs _ => hs
  intro _
  apply triple_bind (R := fun _ s => Replaced codePage p before s ∧ s.changed = true)
  . apply triple_update
    intro s hs
    exact ⟨⟨hs.remembered.step rfl (fun _ => id) rfl (List.Subset.refl _), hs.legacy.congr rfl rfl rfl, hs.created,
      hs.reconfigured, hs.registered, hs.marked⟩, rfl⟩
  intro _
  apply triple_bind (Replaced.keep (keeps_command fun s hs _ => ⟨hs.1.started, hs.2⟩))
  intro _
  exact Replaced.keep (keeps_waitRunning hobserved)

end Replace

section Undo

structure Undone (codePage : Char → List Char) (before : Machine) (s : Script) : Prop where
  remembered : Remembered codePage before s
  registration : Recoverable codePage before s.trace →
    s.machine.registration .hikbridge = before.registration .hikbridge
  down : ∀ name, s.machine.up name → before.up name
  settled : s.marked .hikbridge = false ∨ s.service .hikbridge = none

theorem AtRollback.observed : Observed (AtRollback codePage before) .hikbridge :=
  ⟨fun _ _ hs => ⟨hs.remembered.setService, hs.legacy.advance, fun hchanged => (hs.hikbridge hchanged).advance,
      hs.created, hs.reconfigured, hs.marked⟩,
    fun _ _ hs => ⟨hs.remembered.log, hs.legacy.congr rfl rfl rfl,
      fun hchanged => (hs.hikbridge hchanged).congr rfl rfl rfl, hs.created,
      fun hchanged hcreated => List.mem_cons_of_mem _ (hs.reconfigured hchanged hcreated), hs.marked⟩⟩

theorem AtRollback.stop (h : AtRollback codePage before s) : AtRollback codePage before (s.stop name) :=
  ⟨h.remembered.setService, h.legacy.stop, fun hchanged => (h.hikbridge hchanged).stop, h.created,
    h.reconfigured, h.marked⟩

theorem AtRollback.undone (h : AtRollback codePage before s) (hchanged : s.changed = false)
    : Undone codePage before s := by
  refine ⟨h.remembered, fun _ => (h.hikbridge hchanged).registration, ?_, .inl h.marked⟩
  intro name
  cases name with
  | hikbridge => exact (h.hikbridge hchanged).down
  | HikSdkHttpBridge => exact h.legacy.down

theorem Remembered.registration (h : Remembered codePage before s)
    (hrecoverable : Recoverable codePage before s.trace) (hreconfigured : Entry.reconfigured ∈ s.trace)
    {service : Service} (hservice : service ∈ before.service .hikbridge)
    : s.oldImage = service.image ∧ s.oldStart = service.start := by
  obtain ⟨himage, delayed, hread, hyes, hunread⟩ := h.noted.registration service hservice
  refine ⟨himage.trans (readImage_eq (hrecoverable.image hreconfigured service hservice)), ?_⟩
  cases hdelayed : delayed with
  | true =>
    have hstart := hyes hdelayed
    rw [hstart, hdelayed] at hread
    rw [hstart]
    exact (Option.some.inj hread).symm
  | false =>
    have hne : service.start ≠ .delayedAuto := by
      intro hstart
      exact hrecoverable.start hreconfigured service hservice hstart (hunread hstart hdelayed)
    rw [hdelayed] at hread
    revert hread hne
    cases service.start
    all_goals
      intro hread hne
      first
      | exact absurd rfl hne
      | exact (Option.some.inj hread).symm
      | cases hread

theorem triple_restoreService
    : Triple (fun s => (AtRollback codePage before s ∧ s.changed = true ∧ s.created = false) ∧ s.Stopped .hikbridge)
        restoreService (fun ok s => ok = true → Undone codePage before s) E (fun _ => True) := by
  apply triple_bind (R := fun r s => s = r ∧ (AtRollback codePage before r ∧ r.changed = true ∧
    r.created = false) ∧ r.Stopped .hikbridge) (triple_inspect fun _ hs => ⟨rfl, hs⟩)
  intro r
  apply triple_command (fun _ _ => trivial)
  . rintro s ⟨rfl, ⟨hs, hchanged, hcreated⟩, hstopped⟩ hpossible _
    simp only [Bool.and_eq_true, Bool.not_eq_true'] at hpossible
    obtain ⟨y, hy⟩ := Option.isSome_iff_exists.mp hpossible.2
    rw [hy]
    obtain ⟨x, hx, hconfigured⟩ := Option.bind_eq_some_iff.mp hy
    have hstate : y.state = .stopped := (configure_state hconfigured).trans (hstopped x hx)
    obtain ⟨service, hservice⟩ : ∃ service, before.service .hikbridge = some service := by
      apply Option.ne_none_iff_exists'.mp
      intro hnone
      have := hs.created hchanged
      rw [hcreated, hnone] at this
      cases this
    refine ⟨hs.remembered.setService, ?_, ?_, .inl hs.marked⟩
    . intro hrecoverable
      have hreconfigured := hs.reconfigured hchanged hcreated
      obtain ⟨himage, hstart⟩ := hs.remembered.registration hrecoverable hreconfigured hservice
      have hquotable : CommandLine.Quotable s.oldImage := by
        rw [himage]
        exact (hrecoverable.image hreconfigured service hservice).quotable
      rw [configured_restoreLine hquotable] at hconfigured
      have hregistered : y = x.registered s.oldImage s.oldStart := (Option.some.inj hconfigured).symm
      show ((s.setService .hikbridge (some y)).service .hikbridge).map Service.registration = _
      rw [service_setService, if_pos rfl, hregistered]
      simp [Machine.registration, hservice, Service.registration, Service.registered, himage, hstart]
    . intro name hup
      cases name with
      | hikbridge =>
        obtain ⟨z, hz, hzup⟩ := hup
        change z ∈ (s.setService .hikbridge (some y)).service .hikbridge at hz
        rw [service_setService, if_pos rfl] at hz
        injection hz with hz
        rw [← hz, hstate] at hzup
        cases hzup
      | HikSdkHttpBridge => exact (hs.legacy.setOther (by decide)).down hup
  . rintro s _ hok
    cases hok

theorem triple_undo
    : Triple (AtRollback codePage before) undo (fun ok s => ok = true → Undone codePage before s) E
        (fun _ => True) := by
  apply triple_bind (R := fun r s => s = r ∧ AtRollback codePage before r) (triple_inspect fun _ hs => ⟨rfl, hs⟩)
  intro r
  apply triple_ite
  . intro hchanged
    apply triple_bind (R := fun ok s => (AtRollback codePage before s ∧ s.changed = true ∧ s.created = r.created) ∧
      (ok = true → s.Stopped .hikbridge))
    . have hobserved : Observed (fun s => AtRollback codePage before s ∧ s.changed = true ∧
          s.created = r.created) .hikbridge :=
        ⟨fun progress s hs => ⟨AtRollback.observed.advance progress s hs.1, hs.2⟩,
          fun state s hs => ⟨AtRollback.observed.report state s hs.1, hs.2⟩⟩
      apply (triple_stopService hobserved fun s hs => ⟨hs.1.stop, hs.2⟩).conseq _ (fun _ _ => id) (fun _ _ => id)
        fun _ _ => trivial
      rintro s ⟨rfl, hs⟩
      exact ⟨hs, hchanged, rfl⟩
    intro ok
    apply triple_ite
    . intro hok
      apply triple_ite
      . intro hcreated
        have hobserved : Observed (fun s => Remembered codePage before s ∧ Untouched before .HikSdkHttpBridge s ∧
            before.service .hikbridge = none) .hikbridge :=
          ⟨fun _ _ hs => ⟨hs.1.setService, hs.2.1.advance, hs.2.2⟩,
            fun _ _ hs => ⟨hs.1.log, hs.2.1.congr rfl rfl rfl, hs.2.2⟩⟩
        apply (triple_removeService hobserved (fun s hs => ⟨hs.1.setService, hs.2.1.stop, hs.2.2⟩) _).conseq
          _ _ (fun _ _ => id) fun _ _ => trivial
        . intro s hs
          exact ⟨hs.1.step (t := s.delete .hikbridge) rfl (fun _ => id) rfl (List.subset_cons_self _ _),
            hs.2.1.delete (by decide), hs.2.2⟩
        . intro s ⟨⟨hs, hchanged, hsame⟩, _⟩
          have hnone := hs.created hchanged
          rw [hsame, hcreated] at hnone
          exact ⟨hs.remembered, hs.legacy, Option.isNone_iff_eq_none.mp hnone.symm⟩
        . intro removed s ⟨⟨hremembered, hlegacy, hnone⟩, hgone⟩ hremoved
          have habsent : s.machine.service .hikbridge = none := hgone hremoved
          refine ⟨hremembered, fun _ => ?_, ?_, .inr habsent⟩
          . unfold Machine.registration
            rw [habsent, hnone]
          . intro name hup
            cases name with
            | hikbridge =>
              obtain ⟨x, hx, _⟩ := hup
              rw [habsent] at hx
              cases hx
            | HikSdkHttpBridge => exact hlegacy.down hup
      . intro hcreated
        apply triple_restoreService.pre
        intro s ⟨⟨hs, hchanged, hsame⟩, hstopped⟩
        exact ⟨⟨hs, hchanged, hsame.trans (eq_false_of_ne_true hcreated)⟩, hstopped hok⟩
    . intro _
      exact triple_pure fun _ _ => by simp
  . intro hchanged
    apply triple_pure
    rintro s ⟨rfl, hs⟩ _
    exact hs.undone (eq_false_of_ne_true hchanged)

end Undo

section Restart

theorem up_setService_other {other : Name} {service : Option Service} (hne : name ≠ other)
    : (s.setService other service).machine.up name ↔ s.machine.up name := by
  have hsame : (s.setService other service).service name = s.service name := by
    rw [service_setService, if_neg hne]
  unfold Machine.up
  change (∃ x ∈ (s.setService other service).service name, _) ↔ _
  rw [hsame]
  rfl

theorem Undone.settled_of_same {t : Script} (h : Undone codePage before s)
    (hmarked : t.marked .hikbridge = s.marked .hikbridge)
    (hsame : t.machine.registration .hikbridge = s.machine.registration .hikbridge)
    : t.marked .hikbridge = false ∨ t.service .hikbridge = none := by
  cases h.settled with
  | inl hfalse => exact .inl (hmarked.trans hfalse)
  | inr hnone =>
    right
    have hgone : s.machine.registration .hikbridge = none := by
      show (s.service .hikbridge).map _ = none
      rw [hnone]
      rfl
    exact Option.map_eq_none_iff.mp (hsame.trans hgone)

theorem Undone.advance {progress : Progress} (h : Undone codePage before s)
    : Undone codePage before (s.advance name progress) := by
  have hsame : (s.advance name progress).machine.registration .hikbridge = s.machine.registration .hikbridge := by
    show ((s.advance name progress).service .hikbridge).map _ = (s.service .hikbridge).map _
    unfold Script.advance
    rw [service_setService]
    split
    . next hname =>
      rw [← hname]
      cases h.settled with
      | inl hmarked =>
        rw [next_unmarked hmarked, Option.map_map]
        rfl
      | inr hnone =>
        unfold Script.next
        rw [hnone]
        simp
    . rfl
  refine ⟨h.remembered.setService, fun hrecoverable => hsame.trans (h.registration hrecoverable),
    fun other hup => h.down other (up_advance hup), h.settled_of_same rfl hsame⟩

theorem Undone.log {entry : Entry} (h : Undone codePage before s) : Undone codePage before (s.log entry) :=
  ⟨h.remembered.log, fun hrecoverable => h.registration hrecoverable.past, h.down, h.settled⟩

theorem Undone.observed : Observed (Undone codePage before) name :=
  ⟨fun _ _ hs => hs.advance, fun _ _ hs => hs.log⟩

theorem Undone.started (h : Undone codePage before s) (hup : before.up name)
    : Undone codePage before (s.started name) := by
  have hsame : (s.started name).machine.registration .hikbridge = s.machine.registration .hikbridge := by
    show ((s.changeService name _).service .hikbridge).map _ = (s.service .hikbridge).map _
    unfold Script.changeService
    rw [service_setService]
    split
    . next hname =>
      rw [← hname, Option.map_map]
      rfl
    . rfl
  refine ⟨h.remembered.step (t := s.started name) rfl (fun _ => id) rfl (List.subset_cons_self _ _), ?_, ?_, ?_⟩
  . intro hrecoverable
    exact hsame.trans (h.registration hrecoverable.past)
  . intro other hother
    by_cases hname : other = name
    . rw [hname]
      exact hup
    . exact h.down other ((up_setService_other hname).mp hother)
  . exact h.settled_of_same rfl hsame

theorem triple_restartPrevious
    : Triple (Undone codePage before) restartPrevious
        (fun ok s => Undone codePage before s ∧ (ok = true → before.runs .hikbridge → s.machine.up .hikbridge)) E
        (fun _ => True) := by
  apply triple_bind (R := fun r s => s = r ∧ Undone codePage before r) (triple_inspect fun _ hs => ⟨rfl, hs⟩)
  intro r
  apply triple_ite
  . intro hrunning
    have hkeeps : Keeps (fun s => Undone codePage before s ∧ before.up .hikbridge) (restartService .hikbridge) :=
      keeps_restartService
        ⟨fun _ _ hs => ⟨hs.1.advance, hs.2⟩, fun _ _ hs => ⟨hs.1.log, hs.2⟩⟩ fun _ hs => ⟨hs.1.started hs.2, hs.2⟩
    apply (hkeeps.and triple_restartService).conseq _ _ (fun _ _ hs => hs.2) fun _ _ => trivial
    . rintro s ⟨rfl, hs⟩
      exact ⟨⟨hs, hs.remembered.noted.up hrunning⟩, trivial⟩
    . intro ok s ⟨hs, hup⟩
      exact ⟨hs.1, fun hok _ => hup hok⟩
  . intro hrunning
    apply triple_pure
    rintro s ⟨rfl, hs⟩
    exact ⟨hs, fun _ hruns => absurd (hs.remembered.noted.runs hruns) hrunning⟩

structure Restarted (codePage : Char → List Char) (before : Machine) (previous legacy : Bool) (s : Script)
    : Prop where
  undone : Undone codePage before s
  hikbridge : previous = true → before.runs .hikbridge → s.machine.up .hikbridge
  legacy : legacy = true → before.runs .HikSdkHttpBridge → s.machine.up .HikSdkHttpBridge

theorem triple_restartLegacy {previous : Bool}
    : Triple (fun s => Undone codePage before s ∧
          (previous = true → before.runs .hikbridge → s.machine.up .hikbridge))
        restartLegacy (fun legacy s => Restarted codePage before previous legacy s) E (fun _ => True) := by
  apply triple_bind (R := fun r s => s = r ∧ Undone codePage before r ∧
    (previous = true → before.runs .hikbridge → r.machine.up .hikbridge)) (triple_inspect fun _ hs => ⟨rfl, hs⟩)
  intro r
  apply triple_ite
  . intro hrunning
    have hother : ∀ {s : Script} {service : Option Service}, s.machine.up .hikbridge →
        (s.setService .HikSdkHttpBridge service).machine.up .hikbridge :=
      (up_setService_other (by decide)).mpr
    have hkeeps : Keeps (fun s => (Undone codePage before s ∧
        (previous = true → before.runs .hikbridge → s.machine.up .hikbridge)) ∧ before.up .HikSdkHttpBridge)
        (restartService .HikSdkHttpBridge) :=
      keeps_restartService
        ⟨fun _ _ hs => ⟨⟨hs.1.1.advance, fun hok hruns => hother (hs.1.2 hok hruns)⟩, hs.2⟩,
          fun _ _ hs => ⟨⟨hs.1.1.log, hs.1.2⟩, hs.2⟩⟩
        fun _ hs => ⟨⟨hs.1.1.started hs.2, fun hok hruns => hother (hs.1.2 hok hruns)⟩, hs.2⟩
    apply (hkeeps.and triple_restartService).conseq _ _ (fun _ _ hs => hs.2) fun _ _ => trivial
    . rintro s ⟨rfl, hs⟩
      exact ⟨⟨hs, hs.1.remembered.legacy.up hrunning⟩, trivial⟩
    . intro ok s ⟨hs, hup⟩
      exact ⟨hs.1.1, hs.1.2, fun hok _ => hup hok⟩
  . intro hrunning
    apply triple_pure
    rintro s ⟨rfl, hs⟩
    exact ⟨hs.1, hs.2, fun _ hruns => absurd (hs.1.remembered.legacy.runs hruns) hrunning⟩

end Restart

section Restore

theorem Restarted.createTask {previous legacy : Bool} (h : Restarted codePage before previous legacy s)
    : Restarted codePage before previous legacy (s.createTask name) :=
  ⟨⟨h.undone.remembered.createTask, h.undone.registration, h.undone.down, h.undone.settled⟩, h.hikbridge,
    h.legacy⟩

def TaskRestored (name : Name) (s : Script) : Prop := s.xml name = none ∨ s.task name = s.xml name

theorem TaskRestored.createTask {other : Name} (h : TaskRestored name s) : TaskRestored name (s.createTask other) := by
  by_cases hname : name = other
  . subst hname
    exact .inr (Function.update_self ..)
  . cases h with
    | inl hnone => exact .inl hnone
    | inr heq => exact .inr ((Function.update_of_ne hname _ _).trans heq)

theorem Remembered.task_eq (h : Remembered codePage before s) (hrecoverable : Recoverable codePage before s.trace)
    (htask : TaskRestored name s) : s.task name = before.task name := by
  have hsaved : s.xml name = before.task name := by
    rw [h.saved name]
    cases htask : before.task name with
    | none => rfl
    | some task =>
      rw [Option.map_some, Task.redirected, redirected_eq (hrecoverable.task name task htask)]
  cases htask with
  | inl hnone =>
    rw [hnone] at hsaved
    rw [h.absent name hsaved.symm, hsaved]
  | inr heq => exact heq.trans hsaved

theorem Restarted.restored (h : Restarted codePage before true true s) (htasks : ∀ name, TaskRestored name s)
    (hrecoverable : Recoverable codePage before s.trace) : Restored before s.machine := by
  refine ⟨h.undone.registration hrecoverable, ?_, h.undone.down, ?_⟩
  . intro name
    cases name with
    | hikbridge => exact h.hikbridge rfl
    | HikSdkHttpBridge => exact h.legacy rfl
  . funext name
    exact h.undone.remembered.task_eq hrecoverable (htasks name)

theorem triple_rollback
    : Triple (AtRollback codePage before) rollback
        (fun ending s => ending = .restored → Recoverable codePage before s.trace → Restored before s.machine) E
        (fun _ => True) := by
  apply triple_bind triple_undo
  intro undone
  apply triple_ite
  . intro hundone
    apply triple_bind (triple_restartPrevious.pre fun _ hs => hs hundone)
    intro previous
    apply triple_bind triple_restartLegacy
    intro legacy
    apply triple_bind (R := fun task s => Restarted codePage before previous legacy s ∧
      (task = true → TaskRestored .hikbridge s))
    . exact (triple_restoreTask (I := Restarted codePage before previous legacy) fun _ hs => hs.createTask).conseq
        (fun _ => id) (fun _ _ => id) (fun _ _ => id) fun _ _ => trivial
    intro task
    apply triple_bind (R := fun legacyTask s => (Restarted codePage before previous legacy s ∧
      (task = true → TaskRestored .hikbridge s)) ∧ (legacyTask = true → TaskRestored .HikSdkHttpBridge s))
    . exact (triple_restoreTask (I := fun s => Restarted codePage before previous legacy s ∧
        (task = true → TaskRestored .hikbridge s))
        fun _ hs => ⟨hs.1.createTask, fun htask => (hs.2 htask).createTask⟩).conseq
        (fun _ => id) (fun _ _ => id) (fun _ _ => id) fun _ _ => trivial
    intro legacyTask
    apply triple_pure
    intro s ⟨⟨hs, htask⟩, hlegacyTask⟩ hending hrecoverable
    have hall : (((previous = true ∧ legacy = true) ∧ task = true) ∧ legacyTask = true) := by
      by_contra hnot
      rw [if_neg (by simpa using hnot)] at hending
      cases hending
    obtain ⟨⟨⟨rfl, rfl⟩, rfl⟩, rfl⟩ := hall
    apply hs.restored _ hrecoverable
    intro name
    cases name with
    | hikbridge => exact htask rfl
    | HikSdkHttpBridge => exact hlegacyTask rfl
  . intro _
    exact triple_pure fun _ _ => by simp

end Restore

end HikBridge.Install
