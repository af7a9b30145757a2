import HikBridge.Upgrade.Execute
import HikBridge.Upgrade.Restore

/-!
This module contains where the two installations can be while the tool works, and that what it does to
services changes nothing about that.
-/

namespace HikBridge.Upgrade

variable {α : Type} {J L : Machine → Prop} {R : Registry → Prop} {m : Machine} {name : String}
  {σ : Place → Option Tree} {φ ω : Files}

def Calmer (before after : Option Service) : Prop :=
  match before, after with
  | _, none => True
  | none, some _ => False
  | some service, some service' =>
    service'.config = service.config ∧ service'.image = service.image ∧
      (service.state = .Stopped → service'.state = .Stopped)

-- An assertion that holds on while the tool only looks at services.
structure Observed (J : Machine → Prop) : Prop where
  advance : ∀ m r, J m → J (m.advance r)
  settle : ∀ m name next, J m →
    J (m.mapService name fun service => { service with state := service.state.settle next })

-- An assertion that holds on while the tool stops and removes services.
structure Robust (J : Machine → Prop) : Prop where
  advance : ∀ m r, J m → J (m.advance r)
  calm : ∀ m name after, Calmer (m.services name) after → J m → J (m.setService name after)

theorem ServiceState.settle_stopped (next : ServiceState) : ServiceState.Stopped.settle next = .Stopped := rfl

theorem calmer_map {f : Service → Service} (service : Option Service)
    (hf : ∀ s, Calmer (some s) (some (f s))) : Calmer service (service.map f) := by
  cases service with
  | none => trivial
  | some s => exact hf s

theorem Robust.map (hJ : Robust J) {f : Service → Service} (hf : ∀ s, Calmer (some s) (some (f s)))
    (h : J m) : J (m.mapService name f) := by
  apply hJ.calm
  . exact calmer_map _ hf
  . exact h

theorem Robust.observed (hJ : Robust J) : Observed J where
  advance := hJ.advance
  settle := by
    intro m name next h
    apply hJ.map _ h
    intro s
    refine ⟨rfl, rfl, ?_⟩
    intro hstopped
    simp [hstopped, ServiceState.settle_stopped]

section Keeps

theorem keeps_observe (hJ : ∀ m r, J m → J (m.advance r)) : Program.Keeps J observe := by
  apply Program.keeps_bind Program.keeps_ask
  intro r
  apply Program.keeps_bind (Program.keeps_update fun m h => hJ m r h)
  intro _
  apply Program.keeps_pure

theorem keeps_call {text : String} (hJ : ∀ m r, J m → J (m.advance r)) : Program.Keeps J (call text) := by
  apply Program.keeps_bind (keeps_observe hJ)
  intro r
  apply Program.keeps_ite
  . apply Program.keeps_raise
  . apply Program.keeps_pure

theorem keeps_require {text : String} (hJ : ∀ m r, J m → J (m.advance r))
    : Program.Keeps J (require text) := by
  apply Program.keeps_bind (keeps_call hJ)
  intro r
  apply Program.keeps_ite
  . apply Program.keeps_raise
  . apply Program.keeps_pure

theorem keeps_serviceAt : Program.Keeps J (serviceAt name) := by
  apply Program.keeps_bind Program.keeps_inspect
  intro _
  apply Program.keeps_pure

theorem keeps_say (hJ : ∀ m r, J m → J (m.advance r)) : Program.Keeps J say := by
  apply Program.keeps_bind (keeps_call hJ)
  intro _
  apply Program.keeps_pure

theorem keeps_config2 {value : Reply → α} (hJ : ∀ m r, J m → J (m.advance r))
    : Program.Keeps J (config2 value) := by
  apply Program.keeps_bind (keeps_observe hJ)
  intro _
  apply Program.keeps_ite
  . apply Program.keeps_pure
  . apply Program.keeps_bind (keeps_call hJ)
    intro _
    apply Program.keeps_pure

theorem keeps_status (hJ : Observed J) : Program.Keeps J (status name) := by
  apply Program.keeps_bind (keeps_call hJ.advance)
  intro r
  apply Program.keeps_bind (Program.keeps_update fun m h => hJ.settle m name r.state h)
  intro _
  apply Program.keeps_bind keeps_serviceAt
  intro found
  cases found <;> apply Program.keeps_pure

theorem keeps_snapshot (hJ : Observed J) : Program.Keeps J (snapshot name) := by
  apply Program.keeps_bind (keeps_observe hJ.advance)
  intro opened
  apply Program.keeps_bind keeps_serviceAt
  intro found
  cases found with
  | none => apply Program.keeps_raise
  | some service =>
    apply Program.keeps_ite Program.keeps_raise
    apply Program.keeps_bind (keeps_observe hJ.advance)
    intro _
    apply Program.keeps_bind (keeps_call hJ.advance)
    intro _
    apply Program.keeps_bind (keeps_status hJ)
    intro state
    apply Program.keeps_ite Program.keeps_raise
    apply Program.keeps_bind (keeps_config2 hJ.advance)
    intro _
    apply Program.keeps_bind (keeps_config2 hJ.advance)
    intro _
    apply Program.keeps_bind (keeps_config2 hJ.advance)
    intro _
    apply Program.keeps_bind (keeps_config2 hJ.advance)
    intro _
    apply Program.keeps_bind (keeps_call hJ.advance)
    intro _
    apply Program.keeps_bind (keeps_require hJ.advance)
    intro _
    apply Program.keeps_bind (keeps_require hJ.advance)
    intro _
    apply Program.keeps_bind (keeps_call hJ.advance)
    intro _
    apply Program.keeps_bind (keeps_require hJ.advance)
    intro _
    apply Program.keeps_ite Program.keeps_raise
    apply Program.keeps_ite Program.keeps_raise
    apply Program.keeps_pure

theorem keeps_inspectService (hJ : ∀ m r, J m → J (m.advance r))
    : Program.Keeps J (inspectService name) := by
  apply Program.keeps_bind (keeps_observe hJ)
  intro r
  apply Program.keeps_bind keeps_serviceAt
  intro found
  apply Program.keeps_ite
  . apply Program.keeps_raise
  . apply Program.keeps_pure

theorem keeps_discover (hJ : Observed J) : Program.Keeps J discover := by
  apply Program.keeps_bind (keeps_inspectService hJ.advance)
  intro native
  apply Program.keeps_bind (keeps_inspectService hJ.advance)
  intro managed
  cases native <;> cases managed
  . apply Program.keeps_raise
  . exact keeps_snapshot hJ
  . exact keeps_snapshot hJ
  . apply Program.keeps_raise

theorem keeps_controlStop (hJ : Robust J) : Program.Keeps J (controlStop name) := by
  apply Program.keeps_bind (keeps_observe hJ.advance)
  intro r
  apply Program.keeps_ite Program.keeps_raise
  apply Program.keeps_update
  intro m
  apply hJ.map
  intro s
  refine ⟨rfl, rfl, ?_⟩
  intro hstopped
  simp [hstopped]

theorem keeps_waitStopped (hJ : Robust J) : Program.Keeps J (waitStopped name) := by
  apply Program.keeps_iterate
  intro _
  apply Program.keeps_bind (keeps_status hJ.observed)
  intro state
  apply Program.keeps_ite Program.keeps_pure
  apply Program.keeps_bind (keeps_observe hJ.advance)
  intro clock
  apply Program.keeps_ite
  . apply Program.keeps_raise
  . apply Program.keeps_pure

theorem keeps_stop (hJ : Robust J) : Program.Keeps J (stop name) := by
  apply Program.keeps_bind (keeps_observe hJ.advance)
  intro opened
  apply Program.keeps_bind keeps_serviceAt
  intro found
  apply Program.keeps_ite Program.keeps_raise
  apply Program.keeps_ite Program.keeps_pure
  apply Program.keeps_bind (keeps_status hJ.observed)
  intro state
  apply Program.keeps_bind (keeps_observe hJ.advance)
  intro process
  apply Program.keeps_bind
  . exact Program.keeps_ite (keeps_controlStop hJ) Program.keeps_pure
  . intro _
    apply Program.keeps_bind (keeps_waitStopped hJ)
    intro _
    apply Program.keeps_ite Program.keeps_pure
    apply Program.keeps_bind (keeps_require hJ.advance)
    intro _
    apply Program.keeps_pure

theorem keeps_deleteService (hJ : Robust J) : Program.Keeps J (deleteService name) := by
  apply Program.keeps_bind (keeps_observe hJ.advance)
  intro r
  apply Program.keeps_bind keeps_serviceAt
  intro found
  cases found with
  | none => apply Program.keeps_pure
  | some service =>
    apply Program.keeps_ite Program.keeps_raise
    apply Program.keeps_update
    intro m
    apply hJ.map
    intro s
    exact ⟨rfl, rfl, id⟩

theorem keeps_openForDeletion (hJ : Robust J) : Program.Keeps J (openForDeletion name) := by
  apply Program.keeps_bind (keeps_observe hJ.advance)
  intro r
  apply Program.keeps_bind keeps_serviceAt
  intro found
  apply Program.keeps_ite
  . apply Program.keeps_raise
  . apply Program.keeps_pure

theorem keeps_pollGone (hJ : Robust J) : Program.Keeps J (pollGone name) := by
  apply Program.keeps_bind (keeps_observe hJ.advance)
  intro r
  apply Program.keeps_bind
  . apply Program.keeps_update
    intro m h
    cases m.services name with
    | none => exact h
    | some service =>
      dsimp only
      split
      . apply hJ.calm m name none _ h
        cases m.services name <;> trivial
      . exact h
  . intro _
    apply Program.keeps_bind keeps_serviceAt
    intro found
    apply Program.keeps_pure

theorem keeps_waitGone (hJ : Robust J) : Program.Keeps J (waitGone name) := by
  apply Program.keeps_iterate
  intro _
  apply Program.keeps_bind (keeps_pollGone hJ)
  intro gone
  apply Program.keeps_ite Program.keeps_pure
  apply Program.keeps_bind (keeps_observe hJ.advance)
  intro clock
  apply Program.keeps_ite
  . apply Program.keeps_raise
  . apply Program.keeps_pure

theorem keeps_remove (hJ : Robust J) : Program.Keeps J (remove name) := by
  apply Program.keeps_bind (keeps_stop hJ)
  intro _
  apply Program.keeps_bind (keeps_openForDeletion hJ)
  intro found
  apply Program.keeps_bind
  . exact Program.keeps_ite (keeps_deleteService hJ) Program.keeps_pure
  . intro _
    exact keeps_waitGone hJ

end Keeps

namespace Machine

@[simp]
theorem places_setService (service : Option Service)
    : (m.setService name service).places = m.places := rfl

theorem active_congr {m' : Machine} (package : Package) (h : m.services = m'.services)
    : m.active package = m'.active package := by
  simp [active, runs, h]

theorem active_advance (package : Package) (r : Reply)
    : (m.advance r).active package = m.active package :=
  active_congr package (services_advance m r)

theorem runs_setService {after : Option Service} {package : Package}
    (hafter : Calmer (m.services name) after) (other : String) (h : m.runs other package = false)
    : (m.setService name after).runs other package = false := by
  by_cases hother : other = name
  . rw [hother] at h
    cases after with
    | none => simp [runs, setService, Registry.set, hother]
    | some service' =>
      cases hbefore : m.services name with
      | none => simp [Calmer, hbefore] at hafter
      | some service =>
        simp only [Calmer, hbefore] at hafter
        simp only [runs, hbefore, decide_eq_false_iff_not, not_and] at h
        simp only [runs, setService, Registry.set, hother, if_true, decide_eq_false_iff_not, not_and]
        rw [hafter.2.1]
        intro hstate
        apply h
        intro hstopped
        exact hstate (hafter.2.2 hstopped)
  . simpa [runs, setService, Registry.set, hother] using h

theorem active_setService {after : Option Service} {package : Package}
    (hafter : Calmer (m.services name) after) (h : m.active package = false)
    : (m.setService name after).active package = false := by
  simp only [active, Bool.or_eq_false_iff] at *
  exact ⟨runs_setService hafter _ h.1, runs_setService hafter _ h.2⟩

theorem serve_of_quiet {package : Package} (r : Reply) (h : m.active package = false)
    : m.serve package r = m := by
  simp [serve, h]

theorem written_of_none {package : Package} {ws : List Write} (h : m.places .target = none)
    : m.written package ws = m := by
  simp [written, h]

theorem serve_of_none {package : Package} {r : Reply} (h : m.places .target = none)
    : m.serve package r = m := by
  unfold serve
  split
  . exact written_of_none h
  . rfl

theorem advance_of_none {r : Reply} (h : m.places .target = none) : m.advance r = m := by
  rw [advance, serve_of_none h, serve_of_none h]

end Machine

-- What is at the paths beside the installation.
def Beside (σ : Place → Option Tree) (m : Machine) : Prop := ∀ place, place ≠ .target → m.places place = σ place

structure Home (σ : Place → Option Tree) (φ : Files) (m : Machine) : Prop where
  target : m.places .target = some ⟨.Old, m.original⟩
  beside : Beside σ m
  fresh : m.fresh = φ
  quiet : m.active .New = false

structure Away (σ : Place → Option Tree) (ω : Files) (m : Machine) : Prop where
  target : m.places .target = some ⟨.New, m.fresh⟩
  beside : Beside σ m
  original : m.original = ω
  quiet : m.active .Old = false

structure Gone (σ : Place → Option Tree) (φ ω : Files) (m : Machine) : Prop where
  target : m.places .target = none
  beside : Beside σ m
  fresh : m.fresh = φ
  original : m.original = ω
  quiet : ∀ package, m.active package = false

theorem Beside.setTarget (h : Beside σ m) (tree : Option Tree) : Beside σ (m.setPlace .target tree) := by
  intro place hplace
  simp [Machine.setPlace, hplace, h place hplace]

theorem Home.written (h : Home σ φ m) (ws : List Write) : Home σ φ (m.written .Old ws) := by
  have hw : m.written .Old ws
      = { m.setPlace .target (some ⟨.Old, m.original.writeAll ws⟩) with original := m.original.writeAll ws } := by
    simp [Machine.written, Machine.setPlace, h.target]
  rw [hw]
  exact ⟨by simp [Machine.setPlace], h.beside.setTarget _, h.fresh, h.quiet⟩

theorem Away.written (h : Away σ ω m) (ws : List Write) : Away σ ω (m.written .New ws) := by
  have hw : m.written .New ws
      = { m.setPlace .target (some ⟨.New, m.fresh.writeAll ws⟩) with fresh := m.fresh.writeAll ws } := by
    simp [Machine.written, Machine.setPlace, h.target]
  rw [hw]
  exact ⟨by simp [Machine.setPlace], h.beside.setTarget _, h.original, h.quiet⟩

theorem Home.advance (h : Home σ φ m) (r : Reply) : Home σ φ (m.advance r) := by
  have hserved : Home σ φ (m.serve .Old r) := by
    unfold Machine.serve
    split
    . exact h.written _
    . exact h
  rw [Machine.advance, Machine.serve_of_quiet r hserved.quiet]
  exact hserved

theorem Away.advance (h : Away σ ω m) (r : Reply) : Away σ ω (m.advance r) := by
  rw [Machine.advance, Machine.serve_of_quiet r h.quiet]
  unfold Machine.serve
  split
  . exact h.written _
  . exact h

theorem Gone.advance (h : Gone σ φ ω m) (r : Reply) : Gone σ φ ω (m.advance r) := by
  rw [Machine.advance_of_none h.target]
  exact h

theorem robust_home : Robust (Home σ φ) where
  advance _ r h := h.advance r
  calm _ _ _ hafter h := ⟨h.target, h.beside, h.fresh, Machine.active_setService hafter h.quiet⟩

theorem robust_away : Robust (Away σ ω) where
  advance _ r h := h.advance r
  calm _ _ _ hafter h := ⟨h.target, h.beside, h.original, Machine.active_setService hafter h.quiet⟩

theorem robust_gone : Robust (Gone σ φ ω) where
  advance _ r h := h.advance r
  calm _ _ _ hafter h :=
    ⟨h.target, h.beside, h.fresh, h.original, fun package => Machine.active_setService hafter (h.quiet package)⟩

-- An assertion about the registrations that services which stop or go away cannot make false.
def Downward (R : Registry → Prop) : Prop :=
  ∀ ρ name after, Calmer (ρ name) after → R ρ → R (ρ.set name after)

structure Scene (L : Machine → Prop) (moved installed : Bool) (R : Registry → Prop) (m : Machine) : Prop where
  layout : L m
  moved : m.moved = moved
  installed : m.installed = installed
  registry : R m.services

namespace Machine

@[simp]
theorem flags_written (package : Package) (ws : List Write)
    : (m.written package ws).moved = m.moved ∧ (m.written package ws).installed = m.installed ∧
      (m.written package ws).verified = m.verified ∧ (m.written package ws).source = m.source := by
  unfold written
  split
  . exact ⟨rfl, rfl, rfl, rfl⟩
  . cases package <;> exact ⟨rfl, rfl, rfl, rfl⟩

@[simp]
theorem flags_serve (package : Package) (r : Reply)
    : (m.serve package r).moved = m.moved ∧ (m.serve package r).installed = m.installed ∧
      (m.serve package r).verified = m.verified ∧ (m.serve package r).source = m.source := by
  unfold serve
  split
  . exact flags_written package _
  . exact ⟨rfl, rfl, rfl, rfl⟩

theorem flags_advance (r : Reply)
    : (m.advance r).moved = m.moved ∧ (m.advance r).installed = m.installed ∧
      (m.advance r).verified = m.verified ∧ (m.advance r).source = m.source := by
  simp [advance]

end Machine

theorem robust_scene {moved installed : Bool} (hL : Robust L) (hR : Downward R)
    : Robust (Scene L moved installed R) where
  advance m r h := by
    have hflags := m.flags_advance r
    refine ⟨hL.advance m r h.layout, hflags.1.trans h.moved, hflags.2.1.trans h.installed, ?_⟩
    rw [Machine.services_advance]
    exact h.registry
  calm m name after hafter h :=
    ⟨hL.calm m name after hafter h.layout, h.moved, h.installed, hR _ name after hafter h.registry⟩

section Moves

def aside (σ : Place → Option Tree) (place : Place) (tree : Option Tree) : Place → Option Tree :=
  fun other => if other = place then tree else σ other

theorem Machine.places_move (source destination place : Place)
    : (m.move source destination).places place
        = if place = source then none else if place = destination then m.places source else m.places place := by
  simp only [Machine.move, Machine.setPlace]

theorem Beside.depart (h : Beside σ m) (destination : Place)
    : Beside (aside σ destination (m.places .target)) (m.move .target destination) := by
  intro place hplace
  rw [Machine.places_move, if_neg hplace, aside]
  split
  . rfl
  . exact h place hplace

theorem Beside.arrive (h : Beside σ m) (source : Place)
    : Beside (aside σ source none) (m.move source .target) := by
  intro place hplace
  rw [Machine.places_move, aside]
  split
  . rfl
  . exact h place hplace

theorem Home.depart (h : Home σ φ m) (hquiet : m.active .Old = false)
    : Gone (aside σ .backup (some ⟨.Old, m.original⟩)) φ m.original (m.move .target .backup) where
  target := by simp [Machine.places_move]
  beside := by
    rw [← h.target]
    exact h.beside.depart _
  fresh := h.fresh
  original := rfl
  quiet package := by
    cases package with
    | Old => exact hquiet
    | New => exact h.quiet

theorem Away.depart (h : Away σ ω m) (hquiet : m.active .New = false)
    : Gone (aside σ .failed (some ⟨.New, m.fresh⟩)) m.fresh ω (m.move .target .failed) where
  target := by simp [Machine.places_move]
  beside := by
    rw [← h.target]
    exact h.beside.depart _
  fresh := rfl
  original := h.original
  quiet package := by
    cases package with
    | Old => exact h.quiet
    | New => exact hquiet

theorem Gone.arriveNew (h : Gone σ φ ω m) (hstaged : σ .staged = some ⟨.New, φ⟩)
    : Away (aside σ .staged none) ω (m.move .staged .target) where
  target := by
    have hplace := h.beside .staged (by decide)
    rw [hstaged, ← h.fresh] at hplace
    show _ = some (⟨.New, m.fresh⟩ : Tree)
    simpa [Machine.places_move] using hplace
  beside := h.beside.arrive _
  original := h.original
  quiet := h.quiet .Old

theorem Gone.arriveOld (h : Gone σ φ ω m) (hbackup : σ .backup = some ⟨.Old, ω⟩)
    : Home (aside σ .backup none) φ (m.move .backup .target) where
  target := by
    have hplace := h.beside .backup (by decide)
    rw [hbackup, ← h.original] at hplace
    show _ = some (⟨.Old, m.original⟩ : Tree)
    simpa [Machine.places_move] using hplace
  beside := h.beside.arrive _
  fresh := h.fresh
  quiet := h.quiet .New

end Moves

end HikBridge.Upgrade
