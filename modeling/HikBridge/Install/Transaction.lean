import HikBridge.Install.Rollback

/-!
This module contains the installation as a transaction: what is true of every run of the script.
-/

namespace HikBridge.Install

open Program

variable {codePage : Char → List Char} {p : Package} {before : Machine} {name : Name} {s : Script}
  {E : Label → Script → Prop}

section Order

def Entry.DeletesLegacy : Entry → Prop
  | .serviceDeleted .HikSdkHttpBridge => True
  | .taskDeleted _ => True
  | _ => False

/--
hikbridge was observed to run twice since it was started.
-/
def Confirmed (trace : List Entry) : Prop :=
  List.Sublist [.reported .hikbridge .running, .reported .hikbridge .running, .started .hikbridge] trace

/--
Every deletion of the legacy service or of a task has a confirmed hikbridge before it.
-/
def Orderly : List Entry → Prop
  | [] => True
  | entry :: past => (entry.DeletesLegacy → Confirmed past) ∧ Orderly past

def Log (J : List Entry → Prop) (s : Script) : Prop := J s.trace

theorem orderly_cons {entry : Entry} {trace : List Entry} (h : Orderly trace) (hentry : ¬ entry.DeletesLegacy)
    : Orderly (entry :: trace) :=
  ⟨fun hdeletes => absurd hdeletes hentry, h⟩

theorem observed_orderly : Observed (Log Orderly) name :=
  ⟨fun _ _ hs => hs, fun _ _ hs => orderly_cons hs id⟩

theorem keeps_quiet {J : List Entry → Prop} {possible : Script → Bool} {effect : Script → Script}
    (h : ∀ s, (effect s).trace = s.trace) : Keeps (Log J) (command possible effect) := by
  apply keeps_command
  intro s hs _
  show J (effect s).trace
  rw [h s]
  exact hs

theorem keeps_quietUpdate {J : List Entry → Prop} {effect : Script → Script}
    (h : ∀ s, (effect s).trace = s.trace) : Keeps (Log J) (Program.update effect : Run Unit) := by
  apply keeps_update
  intro s hs
  show J (effect s).trace
  rw [h s]
  exact hs

theorem triple_validate {I : Script → Prop} (hfinish : ∀ s, I s → E .finish s)
    : Triple I validate (fun _ => I) E I := by
  have hstep : Triple I (orGoto .finish (command (fun _ => true) id)) (fun _ => I) E I :=
    triple_orGoto (R := fun _ => I) (triple_command (fun _ => id) (fun _ hs _ => hs) fun _ => id) (fun _ => id)
      hfinish
  unfold validate
  exact triple_bind hstep fun _ => triple_bind hstep fun _ => triple_bind hstep fun _ =>
    triple_bind hstep fun _ => hstep

theorem orderly_snapshotTask : Keeps (Log Orderly) (snapshotTask codePage name) := by
  apply keeps_bind (keeps_quiet (by intro _; rfl))
  intro found
  apply keeps_ite
  . exact keeps_quiet (by intro _; rfl)
  . exact keeps_bind keeps_inspect fun _ => keeps_pure

theorem orderly_snapshot : Keeps (Log Orderly) (snapshot codePage) := by
  unfold snapshot
  apply keeps_bind (keeps_orGoto orderly_snapshotTask)
  intro _
  apply keeps_bind (keeps_orGoto orderly_snapshotTask)
  intro _
  apply keeps_bind (keeps_orGoto _)
  . intro _
    apply keeps_orGoto
    apply keeps_bind observed_orderly.keeps
    intro r
    cases r with
    | failed => exact keeps_pure
    | absent => exact keeps_pure
    | present state =>
      exact keeps_bind (keeps_quietUpdate (by intro _; rfl)) fun _ => keeps_quiet (by intro _; rfl)
  . apply keeps_bind observed_orderly.keeps
    intro r
    cases r with
    | failed => exact keeps_pure
    | absent => exact keeps_pure
    | present state =>
      apply keeps_bind (keeps_quietUpdate (by intro _; rfl))
      intro _
      exact keeps_snapshotService (fun _ hs => orderly_cons hs id) fun _ _ _ hs => hs

theorem orderly_configureService : Keeps (Log Orderly) (configureService p) := by
  apply keeps_bind keeps_inspect
  intro s
  apply keeps_ite
  . apply keeps_bind (keeps_quiet (by intro _; rfl))
    intro ok
    apply keeps_ite _ keeps_pure
    exact keeps_bind (keeps_update fun _ hs => orderly_cons hs id) fun _ => keeps_pure
  . apply keeps_bind (keeps_quiet (by intro _; rfl))
    intro ok
    exact keeps_bind (keeps_quietUpdate (by intro _; rfl)) fun _ => keeps_pure

theorem orderly_rollback : Keeps (Log Orderly) rollback := by
  have hstop : ∀ name, Keeps (Log Orderly) (stopService name) :=
    fun _ => keeps_stopService observed_orderly fun _ hs => hs
  have hrestart : ∀ name, Keeps (Log Orderly) (restartService name) :=
    fun _ => keeps_restartService observed_orderly fun _ hs => orderly_cons hs id
  have htask : ∀ name, Keeps (Log Orderly) (restoreTask name) := by
    intro name
    apply keeps_bind keeps_inspect
    intro s
    apply keeps_ite keeps_pure
    apply keeps_bind (keeps_quiet (by intro _; rfl))
    intro ok
    apply keeps_ite _ keeps_pure
    exact keeps_bind (keeps_quiet (by intro _; rfl)) fun _ => keeps_pure
  have hundo : Keeps (Log Orderly) undo := by
    apply keeps_bind keeps_inspect
    intro s
    apply keeps_ite _ keeps_pure
    apply keeps_bind (hstop .hikbridge)
    intro ok
    apply keeps_ite _ keeps_pure
    apply keeps_ite
    . exact keeps_removeService observed_orderly (fun _ hs => hs) fun _ hs => orderly_cons hs id
    . exact keeps_bind keeps_inspect fun _ => keeps_quiet (by intro _; rfl)
  unfold rollback
  apply keeps_bind hundo
  intro undone
  apply keeps_ite _ keeps_pure
  apply keeps_bind (keeps_bind keeps_inspect fun _ => keeps_ite (hrestart _) keeps_pure)
  intro _
  apply keeps_bind (keeps_bind keeps_inspect fun _ => keeps_ite (hrestart _) keeps_pure)
  intro _
  apply keeps_bind (htask .hikbridge)
  intro _
  exact keeps_bind (htask .HikSdkHttpBridge) fun _ => keeps_pure

theorem triple_waitRunning
    : Triple (fun s => List.Sublist [.started .hikbridge] s.trace) waitRunning
        (fun ok s => ok = true → Confirmed s.trace) E (fun _ => True) := by
  have hconfirm : Triple
      (fun s => List.Sublist [.reported .hikbridge .running, .started .hikbridge] s.trace) confirmRunning
      (fun ok s => ok = true → Confirmed s.trace) E (fun _ => True) := by
    apply triple_bind (R := fun r s => r = .present .running → Confirmed s.trace)
    . apply triple_queryService (fun _ _ => trivial)
      . intro _ _ _ h
        cases h
      . intro _ _ _ _ h
        cases h
      . intro _ s service hs _ h
        injection h with h
        rw [h]
        exact hs.cons_cons _
    . intro r
      apply triple_pure
      intro s hs hok
      exact hs (of_decide_eq_true hok)
  have hpoll : ∀ polls, Triple (fun s => List.Sublist [.started .hikbridge] s.trace) (startPoll polls)
      (fun ok s => ok = true → Confirmed s.trace) E (fun _ => True) := by
    intro polls
    induction polls with
    | zero => exact triple_pure fun _ _ => by simp
    | succ polls ih =>
      apply triple_bind (R := fun r s => List.Sublist [.started .hikbridge] s.trace ∧
        (r = .present .running → List.Sublist [.reported .hikbridge .running, .started .hikbridge] s.trace))
      . apply triple_queryService (fun _ _ => trivial)
        . intro _ _ hs
          exact ⟨hs, fun h => by cases h⟩
        . intro _ _ hs _
          exact ⟨hs, fun h => by cases h⟩
        . intro _ s service hs _
          refine ⟨List.Sublist.cons _ hs, fun h => ?_⟩
          injection h with h
          rw [h]
          exact hs.cons_cons _
      . intro r
        cases r with
        | failed => exact triple_pure fun _ _ => by simp
        | absent => exact triple_pure fun _ _ => by simp
        | present state =>
          cases state with
          | stopped => exact triple_pure fun _ _ => by simp
          | running => exact hconfirm.pre fun _ hs => hs.2 rfl
          | startPending => exact ih.pre fun _ hs => hs.1
          | stopPending => exact ih.pre fun _ hs => hs.1
          | continuePending => exact ih.pre fun _ hs => hs.1
          | pausePending => exact ih.pre fun _ hs => hs.1
          | paused => exact ih.pre fun _ hs => hs.1
  exact hpoll 240

theorem orderly_replace
    : Triple (Log Orderly) (replace p) (fun _ s => Orderly s.trace ∧ Confirmed s.trace) (fun _ => Log Orderly)
        (Log Orderly) := by
  have hpause : ∀ name, Keeps (Log Orderly) (pauseTask name) := fun _ => keeps_pauseTask fun _ hs => hs
  have hstop : ∀ name, Keeps (Log Orderly) (stopService name) :=
    fun _ => keeps_stopService observed_orderly fun _ hs => hs
  unfold replace
  apply triple_bind (keeps_orGoto (hpause .hikbridge))
  intro _
  apply triple_bind (keeps_orGoto (hpause .HikSdkHttpBridge))
  intro _
  apply triple_bind (keeps_orGoto (hstop .HikSdkHttpBridge))
  intro _
  apply triple_bind (keeps_orGoto (hstop .hikbridge))
  intro _
  apply triple_bind (keeps_orGoto orderly_configureService)
  intro _
  apply triple_bind (keeps_quietUpdate (by intro _; rfl))
  intro _
  apply triple_bind (R := fun _ s => Orderly s.trace ∧ List.Sublist [.started .hikbridge] s.trace)
  . apply triple_orGoto (R := fun ok s => Orderly s.trace ∧ (ok = true → List.Sublist [.started .hikbridge] s.trace))
    . apply triple_command (fun _ => id)
      . intro s hs _
        exact ⟨orderly_cons hs id, fun _ => (List.nil_sublist _).cons_cons _⟩
      . intro s hs
        exact ⟨hs, by simp⟩
    . intro s hs
      exact ⟨hs.1, hs.2 rfl⟩
    . intro s hs
      exact hs.1
  intro _
  have hwait : Triple (fun s => Orderly s.trace ∧ List.Sublist [.started .hikbridge] s.trace) waitRunning
      (fun ok s => Orderly s.trace ∧ (ok = true → Confirmed s.trace)) (fun _ => Log Orderly) (Log Orderly) :=
    ((keeps_waitRunning observed_orderly).and (triple_waitRunning (E := fun _ _ => True))).conseq (fun _ => id)
      (fun _ _ => id) (fun _ _ hs => hs.1) fun _ hs => hs.1
  exact triple_orGoto hwait (fun _ hs => ⟨hs.1, hs.2 rfl⟩) fun _ hs => hs.1

theorem orderly_complete
    : Keeps (Log fun trace => Orderly trace ∧ Confirmed trace) complete := by
  have hlog : ∀ entry trace, Orderly trace ∧ Confirmed trace →
      Orderly (entry :: trace) ∧ Confirmed (entry :: trace) :=
    fun entry _ h => ⟨⟨fun _ => h.2, h.1⟩, h.2.cons entry⟩
  have hobserved : ∀ name, Observed (Log fun trace => Orderly trace ∧ Confirmed trace) name :=
    fun _ => ⟨fun _ _ hs => hs, fun _ _ hs => hlog _ _ hs⟩
  have htask : ∀ name, Keeps (Log fun trace => Orderly trace ∧ Confirmed trace) (removeTask name) := by
    intro name
    apply keeps_bind keeps_inspect
    intro s
    apply keeps_ite keeps_pure
    apply keeps_bind (keeps_pauseTask fun _ hs => hs)
    intro ok
    apply keeps_ite _ keeps_pure
    exact keeps_command fun s hs _ => hlog _ s.trace hs
  unfold complete
  apply keeps_bind (keeps_orGoto (keeps_quiet (by intro _; rfl)))
  intro _
  apply keeps_bind (keeps_orGoto (keeps_quiet (by intro _; rfl)))
  intro _
  apply keeps_bind (keeps_orGoto (htask .hikbridge))
  intro _
  apply keeps_bind (keeps_orGoto (htask .HikSdkHttpBridge))
  intro _
  exact keeps_orGoto (keeps_removeService (hobserved _) (fun _ hs => hs) fun _ hs => hlog _ _ hs)

theorem triple_trivial {α : Type} {P : Script → Prop} {m : Run α}
    : Triple P m (fun _ _ => True) (fun _ _ => True) (fun _ => True) := by
  intro s ts _
  rcases m s ts with ⟨_ | _ | _, _, _⟩
  all_goals trivial

theorem rollback_not_succeeded
    : Triple (fun _ => True) rollback (fun ending _ => ending ≠ .succeeded) (fun _ _ => True) (fun _ => True) := by
  apply triple_bind triple_trivial
  intro undone
  apply triple_ite
  . intro _
    apply triple_bind triple_trivial
    intro _
    apply triple_bind triple_trivial
    intro _
    apply triple_bind triple_trivial
    intro _
    apply triple_bind triple_trivial
    intro _
    apply triple_pure
    intro _ _
    split
    . simp
    . simp
  . intro _
    exact triple_pure fun _ _ => by simp

theorem orderly_install
    : Triple (Log Orderly) (install codePage p)
        (fun ending s => Orderly s.trace ∧ (ending = .succeeded → Confirmed s.trace)) (fun _ => Log Orderly)
        (Log Orderly) := by
  apply triple_rescue (D := fun _ => Log Orderly)
  . unfold mainLine
    apply triple_bind (triple_validate (I := Log Orderly) (E := fun _ => Log Orderly) fun _ => id)
    intro _
    apply triple_bind orderly_snapshot
    intro _
    apply triple_bind orderly_replace
    intro _
    apply triple_bind (R := fun _ s => Orderly s.trace ∧ Confirmed s.trace)
    . exact orderly_complete.conseq (fun _ => id) (fun _ _ => id) (fun _ _ hs => hs.1) fun _ hs => hs.1
    intro _
    exact triple_pure fun _ hs => ⟨hs.1, fun _ => hs.2⟩
  . intro label
    cases label with
    | finish => exact triple_pure fun _ hs => ⟨hs, by simp⟩
    | partialSuccess => exact triple_pure fun _ hs => ⟨hs, by simp⟩
    | rollback =>
      apply (orderly_rollback.and rollback_not_succeeded).conseq (fun _ hs => ⟨hs, trivial⟩) _ (fun _ _ hs => hs.1)
        fun _ hs => hs.1
      intro ending s ⟨hs, hne⟩
      exact ⟨hs, fun hsucceeded => absurd hsucceeded hne⟩

end Order

section Success

structure Installed (p : Package) (s : Script) : Prop where
  service : ∃ service ∈ s.service .hikbridge, service.image = p.image ∧ service.start = .auto ∧
    service.restarts = true ∧ service.failureFlag = true
  legacy : s.service .HikSdkHttpBridge = none
  task : ∀ name, s.task name = none

def Policy (p : Package) (restarts failureFlag : Bool) (s : Script) : Prop :=
  ∃ service ∈ s.service .hikbridge, service.image = p.image ∧ service.start = .auto ∧
    (restarts = true → service.restarts = true) ∧ (failureFlag = true → service.failureFlag = true)

theorem Policy.change {f : Service → Service} {restarts failureFlag restarts' failureFlag' : Bool}
    (h : Policy p restarts failureFlag s) (hf : ∀ service, (f service).registration = service.registration)
    (hrestarts : ∀ service, (restarts = true → service.restarts = true) → restarts' = true →
      (f service).restarts = true)
    (hflag : ∀ service, (failureFlag = true → service.failureFlag = true) → failureFlag' = true →
      (f service).failureFlag = true)
    : Policy p restarts' failureFlag' (s.changeService .hikbridge f) := by
  obtain ⟨x, hx, himage, hstart, hpolicy⟩ := h
  have hfx := hf x
  simp only [Service.registration, Prod.mk.injEq] at hfx
  refine ⟨f x, ?_, hfx.1.trans himage, hfx.2.trans hstart, hrestarts x hpolicy.1, hflag x hpolicy.2⟩
  unfold Script.changeService
  rw [service_setService, if_pos rfl]
  exact Option.mem_map_of_mem f hx

theorem Policy.setOther {restarts failureFlag : Bool} {service : Option Service} (h : Policy p restarts failureFlag s)
    : Policy p restarts failureFlag (s.setService .HikSdkHttpBridge service) := by
  obtain ⟨x, hx, hrest⟩ := h
  refine ⟨x, ?_, hrest⟩
  rw [service_setService, if_neg (by decide)]
  exact hx

-- A task without a file in the backup is not there.
def Backed (s : Script) : Prop := ∀ name, s.xml name = none → s.task name = none

theorem Backed.setTask {task : Option Task} (h : Backed s) (htask : s.task name = none → task = none)
    : Backed (s.setTask name task) := by
  intro other hnone
  show Function.update s.machine.task name task other = none
  by_cases hname : other = name
  . subst hname
    rw [Function.update_self]
    exact htask (h other hnone)
  . rw [Function.update_of_ne hname]
    exact h other hnone

theorem Backed.disableTask (h : Backed s) : Backed (s.disableTask name) := by
  apply h.setTask
  intro hnone
  rw [hnone]
  rfl

theorem task_setTask {other : Name} {task : Option Task} (h : s.task other = none) (htask : task = none ∨ other ≠ name)
    : (s.setTask name task).task other = none := by
  show Function.update s.machine.task name task other = none
  by_cases hname : other = name
  . subst hname
    rw [Function.update_self]
    exact htask.resolve_right fun hne => hne rfl
  . rw [Function.update_of_ne hname]
    exact h

theorem triple_complete (hpartialSuccess : ∀ s, E .partialSuccess s)
    : Triple (fun s => Registered p s ∧ Backed s) complete (fun _ => Installed p) E (fun _ => True) := by
  unfold complete
  apply triple_bind (R := fun _ s => Policy p true false s ∧ Backed s)
  . apply triple_orGoto (R := fun ok s => ok = true → Policy p true false s ∧ Backed s) _ (fun _ hs => hs rfl)
      fun s _ => hpartialSuccess s
    apply triple_command (fun _ _ => trivial)
    . intro s ⟨⟨x, hx, himage, hstart⟩, hbacked⟩ _ _
      have hpolicy : Policy p false false s := ⟨x, hx, himage, hstart, by simp, by simp⟩
      exact ⟨hpolicy.change (fun _ => rfl) (fun _ _ _ => rfl) (fun _ _ h => by cases h), hbacked⟩
    . intro _ _ h
      cases h
  intro _
  apply triple_bind (R := fun _ s => Policy p true true s ∧ Backed s)
  . apply triple_orGoto (R := fun ok s => ok = true → Policy p true true s ∧ Backed s) _ (fun _ hs => hs rfl)
      fun s _ => hpartialSuccess s
    apply triple_command (fun _ _ => trivial)
    . intro s ⟨hpolicy, hbacked⟩ _ _
      exact ⟨hpolicy.change (fun _ => rfl) (fun _ h => h) fun _ _ _ => rfl, hbacked⟩
    . intro _ _ h
      cases h
  intro _
  have hbacked : ∀ name s, s.xml name = none → (Policy p true true s ∧ Backed s) → s.task name = none :=
    fun name _ hnone hs => hs.2 name hnone
  apply triple_bind (R := fun _ s => (Policy p true true s ∧ Backed s) ∧ s.task .hikbridge = none)
  . apply triple_orGoto (R := fun ok s => (Policy p true true s ∧ Backed s) ∧ (ok = true → s.task .hikbridge = none))
      _ (fun _ hs => ⟨hs.1, hs.2 rfl⟩) fun s _ => hpartialSuccess s
    apply (triple_removeTask (I := fun s => Policy p true true s ∧ Backed s) _ _ _).conseq (fun _ => id)
      (fun _ _ => id) (fun _ _ => id) fun _ _ => trivial
    . exact fun s hs => ⟨hs.1, hs.2.disableTask⟩
    . exact fun s hs => ⟨hs.1, hs.2.setTask fun _ => rfl⟩
    . exact fun s hs hnone => hs.2 _ hnone
  intro _
  apply triple_bind (R := fun _ s => Policy p true true s ∧ ∀ name, s.task name = none)
  . apply triple_orGoto (R := fun ok s => ((Policy p true true s ∧ Backed s) ∧ s.task .hikbridge = none) ∧
      (ok = true → s.task .HikSdkHttpBridge = none)) _ _ fun s _ => hpartialSuccess s
    . apply (triple_removeTask (I := fun s => (Policy p true true s ∧ Backed s) ∧ s.task .hikbridge = none)
        _ _ _).conseq (fun _ => id) (fun _ _ => id) (fun _ _ => id) fun _ _ => trivial
      . exact fun s hs => ⟨⟨hs.1.1, hs.1.2.disableTask⟩, task_setTask hs.2 (.inr (by decide))⟩
      . exact fun s hs => ⟨⟨hs.1.1, hs.1.2.setTask fun _ => rfl⟩, task_setTask hs.2 (.inl rfl)⟩
      . exact fun s hs hnone => hs.1.2 _ hnone
    . intro s ⟨⟨hs, hfirst⟩, hsecond⟩
      refine ⟨hs.1, fun name => ?_⟩
      cases name with
      | hikbridge => exact hfirst
      | HikSdkHttpBridge => exact hsecond rfl
  intro _
  have hobserved : Observed (fun s => Policy p true true s ∧ ∀ name, s.task name = none) .HikSdkHttpBridge :=
    ⟨fun _ _ hs => ⟨hs.1.setOther, hs.2⟩, fun _ _ hs => hs⟩
  apply triple_orGoto ((triple_removeService hobserved (fun s hs => ⟨hs.1.setOther, hs.2⟩) fun _ hs => hs).conseq
    (fun _ => id) (fun _ _ => id) (fun _ _ => id) fun _ _ => trivial) _ fun s _ => hpartialSuccess s
  intro s ⟨⟨⟨x, hx, himage, hstart, hrestarts, hflag⟩, htask⟩, hgone⟩
  exact ⟨⟨x, hx, himage, hstart, hrestarts rfl, hflag rfl⟩, hgone rfl, htask⟩

end Success

section Transaction

theorem triple_install
    : Triple (fun s => s = Script.initial before) (install codePage p)
        (fun ending s => (ending = .succeeded → Installed p s) ∧
          (ending = .restored → Recoverable codePage before s.trace → Restored before s.machine))
        (fun _ _ => True) (fun _ => True) := by
  apply triple_rescue (D := AtLabel codePage before)
  . unfold mainLine
    apply triple_bind (R := fun _ s => s = Script.initial before)
    . exact (triple_validate fun _ _ h => by cases h).conseq (fun _ => id) (fun _ _ => id) (fun _ _ => id)
        fun _ _ => trivial
    intro _
    apply triple_bind (triple_snapshot fun _ h => by cases h)
    intro _
    apply triple_bind triple_replace
    intro _
    apply triple_bind (R := fun _ => Installed p)
    . apply (triple_complete fun _ h => by cases h).pre
      . intro s ⟨hs, _⟩
        refine ⟨hs.registered, fun name hnone => ?_⟩
        apply hs.remembered.absent
        have hsaved := hs.remembered.saved name
        unfold SavedTask at hsaved
        rw [hnone] at hsaved
        exact Option.map_eq_none_iff.mp hsaved.symm
    intro _
    exact triple_pure fun _ hs => ⟨fun _ => hs, by simp⟩
  . intro label
    cases label with
    | finish => exact triple_pure fun _ _ => by simp
    | partialSuccess => exact triple_pure fun _ _ => by simp
    | rollback =>
      apply ((triple_rollback (E := fun _ _ => True)).and rollback_not_succeeded).conseq
        (fun _ hs => ⟨hs rfl, trivial⟩) _ (fun _ _ _ => trivial) fun _ _ => trivial
      intro ending s ⟨hs, hne⟩
      exact ⟨fun hsucceeded => absurd hsucceeded hne, hs⟩

-- A code page on the characters that all of them represent alike.
def ascii (c : Char) : List Char := if c.toNat < 128 then [c] else ['?']

def newPackage : Package := ⟨"D:\\new bridge\\".toList, by decide⟩

def oldMachine (image : String) (start : StartType) : Machine where
  service name := if name = .hikbridge then some { image := image.toList, start, state := .running } else none
  task name := if name = .HikSdkHttpBridge then some { text := "<Task/>".toList, enabled := true } else none

-- All commands up to the configuration of hikbridge succeed, its start does not, and the rollback does.
def failedStart : List Tick :=
  List.replicate 22 ⟨true, .settles⟩ ++ [⟨false, .stays⟩] ++ List.replicate 8 ⟨true, .settles⟩

end Transaction

end HikBridge.Install
