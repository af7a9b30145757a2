import HikBridge.Install.Script

/-!
This module contains the rules for the commands and the subroutines of the script: what each keeps, and
what is true after it has succeeded.
-/

namespace HikBridge.Install

open Program

variable {P C I : Script → Prop} {E : Label → Script → Prop} {name : Name}

section Command

variable {possible : Script → Bool} {effect : Script → Script}

theorem triple_command {Q : Bool → Script → Prop} (hcut : ∀ s, P s → C s)
    (hok : ∀ s, P s → possible s = true → Q true (effect s)) (hfailed : ∀ s, P s → Q false s)
    : Triple P (command possible effect) Q E C := by
  apply triple_bind (triple_ask hcut fun _ _ => id)
  intro t
  apply triple_bind (R := fun s s' => s' = s ∧ P s) (triple_inspect fun _ hs => ⟨rfl, hs⟩)
  intro s
  apply triple_ite
  . intro h
    have hpossible : possible s = true := (Bool.and_eq_true_iff.mp h).2
    apply triple_bind (R := fun _ => Q true)
    . apply triple_update
      rintro _ ⟨rfl, hs⟩
      exact hok _ hs hpossible
    . intro _
      exact triple_pure fun _ => id
  . intro _
    apply triple_pure
    rintro _ ⟨rfl, hs⟩
    exact hfailed _ hs

theorem keeps_command (h : ∀ s, I s → possible s = true → I (effect s))
    : Keeps I (command possible effect) :=
  triple_command (fun _ => id) h fun _ => id

theorem triple_orGoto {label : Label} {m : Run Bool} {Q : Unit → Script → Prop} {R : Bool → Script → Prop}
    (hm : Triple P m R E C) (hok : ∀ s, R true s → Q () s) (hfailed : ∀ s, R false s → E label s)
    : Triple P (orGoto label m) Q E C := by
  apply triple_bind hm
  intro ok
  cases ok with
  | true => exact triple_pure hok
  | false => exact triple_raise hfailed

theorem keeps_orGoto {label : Label} {m : Run Bool} (h : Keeps I m) : Keeps I (orGoto label m) :=
  triple_orGoto h (fun _ => id) fun _ => id

end Command

section Query

def Report.Says : Report → Option Service → Prop
  | .failed, _ => True
  | .absent, service => service = none
  | .present state, service => ∃ x ∈ service, x.state = state

theorem triple_queryService {Q : Report → Script → Prop} (hcut : ∀ s, P s → C s)
    (hfailed : ∀ progress s, P s → Q .failed (s.advance name progress))
    (habsent : ∀ progress s, P s → (s.advance name progress).service name = none →
      Q .absent (s.advance name progress))
    (hpresent : ∀ progress s service, P s → (s.advance name progress).service name = some service →
      Q (.present service.state) ((s.advance name progress).log (.reported name service.state)))
    : Triple P (queryService name) Q E C := by
  apply triple_bind (triple_ask hcut fun _ _ => id)
  intro t
  apply triple_bind (R := fun _ s' => ∃ s, P s ∧ s' = s.advance name t.progress)
    (triple_update fun s hs => ⟨s, hs, rfl⟩)
  intro _
  apply triple_bind (R := fun s s' => s' = s ∧ ∃ r, P r ∧ s = r.advance name t.progress)
    (triple_inspect fun _ hs => ⟨rfl, hs⟩)
  intro s
  split
  . next hnone =>
    apply triple_pure
    rintro _ ⟨rfl, r, hr, rfl⟩
    split
    . exact habsent t.progress r hr hnone
    . exact hfailed t.progress r hr
  . next service hsome =>
    apply triple_ite
    . intro _
      apply triple_bind (R := fun _ => Q (.present service.state))
      . apply triple_update
        rintro _ ⟨rfl, r, hr, rfl⟩
        exact hpresent t.progress r service hr hsome
      . intro _
        exact triple_pure fun _ => id
    . intro _
      apply triple_pure
      rintro _ ⟨rfl, r, hr, rfl⟩
      exact hfailed t.progress r hr

structure Observed (I : Script → Prop) (name : Name) : Prop where
  advance : ∀ progress s, I s → I (s.advance name progress)
  report : ∀ state s, I s → I (s.log (.reported name state))

theorem Observed.query (h : Observed I name)
    : Triple I (queryService name) (fun r s => I s ∧ r.Says (s.service name)) E I := by
  apply triple_queryService (fun _ => id)
  . intro progress s hs
    exact ⟨h.advance progress s hs, trivial⟩
  . intro progress s hs hnone
    exact ⟨h.advance progress s hs, hnone⟩
  . intro progress s service hs hsome
    exact ⟨h.report _ _ (h.advance progress s hs), service, hsome, rfl⟩

theorem Observed.keeps (h : Observed I name) : Keeps I (queryService name) :=
  h.query.conseq (fun _ => id) (fun _ _ hs => hs.1) (fun _ _ => id) fun _ => id

end Query

section Services

def Script.Stopped (name : Name) (s : Script) : Prop := ∀ service ∈ s.service name, service.state = .stopped

theorem stopped_of_none {s : Script} (h : s.service name = none) : s.Stopped name := by
  intro service hservice
  rw [h] at hservice
  cases hservice

theorem stopped_of_present {s : Script} (h : Report.Says (.present .stopped) (s.service name))
    : s.Stopped name := by
  obtain ⟨x, hx, hstate⟩ := h
  intro service hservice
  rw [hx] at hservice
  injection hservice with hservice
  exact hservice ▸ hstate

theorem triple_stopPoll (h : Observed I name) {polls : Nat}
    : Triple I (stopPoll name polls) (fun ok s => I s ∧ (ok = true → s.Stopped name)) E I := by
  induction polls with
  | zero =>
    apply triple_pure
    intro s hs
    exact ⟨hs, by simp⟩
  | succ polls ih =>
    apply triple_bind h.query
    intro r
    cases r with
    | failed => exact triple_pure fun _ hs => ⟨hs.1, by simp⟩
    | absent => exact triple_pure fun _ hs => ⟨hs.1, fun _ => stopped_of_none hs.2⟩
    | present state =>
      apply triple_ite
      . rintro rfl
        apply triple_pure
        intro s hs
        exact ⟨hs.1, fun _ => stopped_of_present hs.2⟩
      . intro _
        exact ih.pre fun _ hs => hs.1

theorem triple_stopService (h : Observed I name) (hstop : ∀ s, I s → I (s.stop name))
    : Triple I (stopService name) (fun ok s => I s ∧ (ok = true → s.Stopped name)) E I := by
  apply triple_bind h.query
  intro r
  have hpoll : Triple I (stopPoll name 90) (fun ok s => I s ∧ (ok = true → s.Stopped name)) E I :=
    triple_stopPoll h
  have hstops : ∀ state, Triple (fun s => I s ∧ Report.Says (.present state) (s.service name))
      (do if ← scStop name then stopPoll name 90 else return false)
      (fun ok s => I s ∧ (ok = true → s.Stopped name)) E I := by
    intro state
    apply triple_bind (R := fun _ => I)
    . apply triple_command
      . intro s hs
        exact hs.1
      . intro s hs _
        exact hstop s hs.1
      . intro s hs
        exact hs.1
    . intro ok
      apply triple_ite
      . intro _
        exact hpoll
      . intro _
        exact triple_pure fun _ hs => ⟨hs, by simp⟩
  cases r with
  | failed => exact triple_pure fun _ hs => ⟨hs.1, by simp⟩
  | absent => exact triple_pure fun _ hs => ⟨hs.1, fun _ => stopped_of_none hs.2⟩
  | present state =>
    cases state with
    | stopped => exact triple_pure fun _ hs => ⟨hs.1, fun _ => stopped_of_present hs.2⟩
    | stopPending => exact hpoll.pre fun _ hs => hs.1
    | startPending => exact hstops _
    | running => exact hstops _
    | continuePending => exact hstops _
    | pausePending => exact hstops _
    | paused => exact hstops _

theorem keeps_stopService (h : Observed I name) (hstop : ∀ s, I s → I (s.stop name))
    : Keeps I (stopService name) :=
  (triple_stopService h hstop).conseq (fun _ => id) (fun _ _ hs => hs.1) (fun _ _ => id) fun _ => id

theorem keeps_waitRunning (h : Observed I .hikbridge) : Keeps I waitRunning := by
  have hpoll : ∀ polls, Keeps I (startPoll polls) := by
    intro polls
    induction polls with
    | zero => exact keeps_pure
    | succ polls ih =>
      apply keeps_bind h.keeps
      intro r
      cases r with
      | failed => exact keeps_pure
      | absent => exact keeps_pure
      | present state =>
        cases state with
        | stopped => exact keeps_pure
        | running => exact keeps_bind h.keeps fun _ => keeps_pure
        | startPending => exact ih
        | stopPending => exact ih
        | continuePending => exact ih
        | pausePending => exact ih
        | paused => exact ih
  exact hpoll 240

theorem keeps_restartService (h : Observed I name) (hstart : ∀ s, I s → I (s.started name))
    : Keeps I (restartService name) := by
  have hstarts : Keeps I (scStart name) := keeps_command fun s hs _ => hstart s hs
  apply keeps_bind h.keeps
  intro r
  cases r with
  | failed => exact keeps_pure
  | absent => exact hstarts
  | present state => exact keeps_ite keeps_pure hstarts

theorem triple_restartService
    : Triple (fun _ => True) (restartService name) (fun ok s => ok = true → s.machine.up name) E fun _ => True := by
  have hstarts : Triple (fun _ => True) (scStart name) (fun ok s => ok = true → s.machine.up name) E
      fun _ => True := by
    apply triple_command (fun _ => id)
    . intro s _ hpossible _
      obtain ⟨service, hservice⟩ : ∃ service, s.service name = some service := by
        cases hservice : s.service name with
        | none => simp [hservice] at hpossible
        | some service => exact ⟨service, rfl⟩
      refine ⟨{ service with state := .startPending }, ?_, rfl⟩
      simp [Script.started, Script.changeService, Script.setService, hservice]
    . intro s _ hok
      cases hok
  have hobserved : Observed (fun _ => True) name := ⟨fun _ _ => id, fun _ _ => id⟩
  apply triple_bind hobserved.query
  intro r
  cases r with
  | failed => exact triple_pure fun _ _ => by simp
  | absent => exact hstarts.pre fun _ _ => trivial
  | present state =>
    apply triple_ite
    . rintro rfl
      apply triple_pure
      intro s ⟨_, service, hservice, hstate⟩ _
      exact ⟨service, hservice, by rw [hstate]; rfl⟩
    . intro _
      exact hstarts.pre fun _ _ => trivial

theorem triple_removeService (h : Observed I name) (hstop : ∀ s, I s → I (s.stop name))
    (hdelete : ∀ s, I s → I (s.delete name))
    : Triple I (removeService name) (fun ok s => I s ∧ (ok = true → s.service name = none)) E I := by
  have hpoll : ∀ polls, Triple I (deletePoll name polls)
      (fun ok s => I s ∧ (ok = true → s.service name = none)) E I := by
    intro polls
    induction polls with
    | zero => exact triple_pure fun _ hs => ⟨hs, by simp⟩
    | succ polls ih =>
      apply triple_bind h.query
      intro r
      cases r with
      | failed => exact triple_pure fun _ hs => ⟨hs.1, by simp⟩
      | absent => exact triple_pure fun _ hs => ⟨hs.1, fun _ => hs.2⟩
      | present state => exact ih.pre fun _ hs => hs.1
  apply triple_bind (R := fun _ => I)
    ((triple_stopService h hstop).conseq (fun _ => id) (fun _ _ hs => hs.1) (fun _ _ => id) fun _ => id)
  intro ok
  apply triple_ite
  . intro _
    apply triple_bind h.query
    intro r
    cases r with
    | failed => exact triple_pure fun _ hs => ⟨hs.1, by simp⟩
    | absent => exact triple_pure fun _ hs => ⟨hs.1, fun _ => hs.2⟩
    | present state =>
      apply triple_bind (R := fun _ => I)
      . apply triple_command
        . intro s hs
          exact hs.1
        . intro s hs _
          exact hdelete s hs.1
        . intro s hs
          exact hs.1
      . intro deleted
        apply triple_ite
        . intro _
          exact hpoll 30
        . intro _
          exact triple_pure fun _ hs => ⟨hs, by simp⟩
  . intro _
    exact triple_pure fun _ hs => ⟨hs, by simp⟩

theorem keeps_removeService (h : Observed I name) (hstop : ∀ s, I s → I (s.stop name))
    (hdelete : ∀ s, I s → I (s.delete name)) : Keeps I (removeService name) :=
  (triple_removeService h hstop hdelete).conseq (fun _ => id) (fun _ _ hs => hs.1) (fun _ _ => id) fun _ => id

end Services

section Tasks

variable {codePage : Char → List Char}

theorem triple_snapshotTask (hsave : ∀ s, I s → I (s.saveTask codePage name))
    : Triple (fun s => I s ∧ s.xml name = none) (snapshotTask codePage name)
        (fun ok s => I s ∧ (ok = true → s.xml name = (s.task name).map (Task.redirected codePage))) E I := by
  apply triple_bind (R := fun _ s => I s ∧ s.xml name = none)
  . exact triple_command (fun _ hs => hs.1) (fun _ hs _ => hs) fun _ => id
  . intro found
    apply triple_ite
    . intro _
      apply triple_command (fun _ hs => hs.1)
      . intro s hs _
        refine ⟨hsave s hs.1, fun _ => ?_⟩
        exact Function.update_self ..
      . intro s hs
        exact ⟨hs.1, by simp⟩
    . intro _
      apply triple_bind (R := fun r s => s = r ∧ I s ∧ s.xml name = none)
        (triple_inspect fun _ hs => ⟨rfl, hs⟩)
      intro r
      apply triple_pure
      rintro s ⟨rfl, hs, hxml⟩
      refine ⟨hs, fun hnone => ?_⟩
      rw [hxml, Option.isNone_iff_eq_none.mp hnone]
      rfl

theorem triple_pauseTask (hdisable : ∀ s, I s → I (s.disableTask name))
    : Triple I (pauseTask name) (fun _ => I) E I := by
  apply triple_bind (R := fun _ => I) (triple_inspect fun _ => id)
  intro s
  apply triple_ite
  . intro _
    exact triple_pure fun _ => id
  . intro _
    apply triple_bind (R := fun _ => I) (triple_command (fun _ => id) (fun s hs _ => hdisable s hs) fun _ => id)
    intro ok
    apply triple_ite
    . intro _
      apply triple_bind (R := fun _ => I) (triple_command (fun _ => id) (fun _ hs _ => hs) fun _ => id)
      intro _
      exact triple_pure fun _ => id
    . intro _
      exact triple_pure fun _ => id

theorem keeps_pauseTask (hdisable : ∀ s, I s → I (s.disableTask name)) : Keeps I (pauseTask name) :=
  triple_pauseTask hdisable

theorem triple_removeTask (hdisable : ∀ s, I s → I (s.disableTask name))
    (hdelete : ∀ s, I s → I (s.deleteTask name)) (hxml : ∀ s, I s → s.xml name = none → s.task name = none)
    : Triple I (removeTask name) (fun ok s => I s ∧ (ok = true → s.task name = none)) E I := by
  apply triple_bind (R := fun r s => s = r ∧ I s) (triple_inspect fun _ hs => ⟨rfl, hs⟩)
  intro r
  apply triple_ite
  . intro hnone
    apply triple_pure
    rintro s ⟨rfl, hs⟩
    exact ⟨hs, fun _ => hxml s hs (Option.isNone_iff_eq_none.mp hnone)⟩
  . intro _
    apply triple_bind ((triple_pauseTask hdisable).pre fun _ hs => hs.2)
    intro ok
    apply triple_ite
    . intro _
      apply triple_command (fun _ => id)
      . intro s hs _
        refine ⟨hdelete s hs, fun _ => ?_⟩
        exact Function.update_self ..
      . intro s hs
        exact ⟨hs, by simp⟩
    . intro _
      exact triple_pure fun _ hs => ⟨hs, by simp⟩

theorem triple_restoreTask (hcreate : ∀ s, I s → I (s.createTask name))
    : Triple I (restoreTask name)
        (fun ok s => I s ∧ (ok = true → s.xml name = none ∨ s.task name = s.xml name)) E I := by
  apply triple_bind (R := fun r s => s = r ∧ I s) (triple_inspect fun _ hs => ⟨rfl, hs⟩)
  intro r
  apply triple_ite
  . intro hnone
    apply triple_pure
    rintro s ⟨rfl, hs⟩
    exact ⟨hs, fun _ => .inl (Option.isNone_iff_eq_none.mp hnone)⟩
  . intro _
    apply triple_bind (R := fun ok s => I s ∧ (ok = true → s.task name = s.xml name))
    . apply triple_command (fun _ hs => hs.2)
      . intro s hs _
        refine ⟨hcreate s hs.2, fun _ => ?_⟩
        exact Function.update_self ..
      . intro s hs
        exact ⟨hs.2, by simp⟩
    . intro ok
      apply triple_ite
      . intro hok
        apply triple_bind (R := fun _ s => I s ∧ (ok = true → s.task name = s.xml name))
          (triple_command (fun _ hs => hs.1) (fun _ hs _ => hs) fun _ => id)
        intro _
        exact triple_pure fun s hs => ⟨hs.1, fun _ => .inr (hs.2 hok)⟩
      . intro _
        exact triple_pure fun s hs => ⟨hs.1, by simp⟩

end Tasks

end HikBridge.Install
