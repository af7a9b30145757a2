import HikBridge.VideoCodecCache.Faults
import HikBridge.VideoCodecCache.RoundTrip

/-!
This module contains the codec cache of the C# bridge. Its dictionary has no lock, so the calls run
between each other step by step, and an enumeration meets the entries one at a time while others change
them. Only the saving of the file is under a lock. The file is given by the dictionary that its text
stands for.
-/

namespace HikBridge.VideoCodecCache

open Expiring

/--
Where a call stands. `saving` has the keys that the enumeration has still to visit and what it has taken.
-/
inductive CacheCall where
  | idle
  | looking (key : Bytes)
  | found (key : Bytes) (entry : Entry)
  | removing (key : Bytes)
  | storing (key : Bytes) (entry : Entry)
  | owing
  | saving (now : Int) (order : List Bytes) (values : Items)
  | returned (codec : DetectedVideoCodec)

def CacheCall.isOver : CacheCall → Bool
  | .idle | .returned _ => true
  | _ => false

/--
How the replacement of the file ends: with the new one, with the old one or with none.
-/
inductive Replacement where
  | replaced
  | kept
  | lost
  deriving DecidableEq, Repr

/--
`savedAt` is when the last call that saved has read the clock, if its replacement succeeded.
-/
structure SharedCache where
  ttlSeconds : Int
  filePath : String
  entries : Items
  file : Option Items
  calls : Nat → CacheCall := fun _ => .idle
  lock : Option Nat := none
  savedAt : Option Int

inductive CacheEvent where
  | tryGet (key : Bytes)
  | set (key : Bytes) (codec : DetectedVideoCodec) (now : Int)
  | look
  | check (now : Int)
  | remove
  | store
  | acquire (now : Int) (order : List Bytes)
  | visit
  | replace (replacement : Replacement)

namespace SharedCache

variable (s : SharedCache)

def saves (ttlSeconds : Int) (filePath : String) : Bool :=
  0 < ttlSeconds && !filePath.toList.all CSharp.isWhiteSpace

def load (ttlSeconds : Int) (filePath : String) (file : Option Items) (now : Int) : Items :=
  match file with
  | none => ∅
  | some values =>
    if saves ttlSeconds filePath then
      values.filter fun _ entry => entry.codec ≠ .Unknown ∧ now < entry.expires
    else
      ∅

def create (ttlSeconds : Int) (filePath : String) (file : Option Items) (now : Int) : SharedCache where
  ttlSeconds
  filePath
  entries := load ttlSeconds filePath file now
  file
  savedAt := some now

def setCall (n : Nat) (call : CacheCall) : SharedCache :=
  { s with calls := Function.update s.calls n call }

def ticksPerSecond : Int := 10000000

def tryGet (n : Nat) (key : Bytes) : SharedCache :=
  if s.ttlSeconds ≤ 0 then s.setCall n (.returned .Unknown) else s.setCall n (.looking key)

def set (n : Nat) (key : Bytes) (codec : DetectedVideoCodec) (now : Int) : SharedCache :=
  if s.ttlSeconds ≤ 0 ∨ codec ≠ .H264 ∧ codec ≠ .H265 then s.setCall n (.returned .Unknown)
  else s.setCall n (.storing key ⟨codec, now + s.ttlSeconds * ticksPerSecond⟩)

def acquire (n : Nat) (now : Int) (order : List Bytes) : Option SharedCache :=
  if !saves s.ttlSeconds s.filePath then
    some (s.setCall n (.returned .Unknown))
  else if s.lock = none ∧ order.Nodup ∧ s.entries.keys.all order.contains then
    some { s.setCall n (.saving now order ∅) with lock := some n }
  else
    none

def taken (entries : Items) (now : Int) (key : Bytes) (values : Items) : Items :=
  match entries[key]? with
  | some entry => if now < entry.expires then values.insert key entry else values
  | none => values

def replace (n : Nat) (now : Int) (values : Items) : Replacement → SharedCache
  | .replaced =>
    { s.setCall n (.returned .Unknown) with file := some values, savedAt := some now, lock := none }
  | .kept => { s.setCall n (.returned .Unknown) with savedAt := none, lock := none }
  | .lost => { s.setCall n (.returned .Unknown) with file := none, savedAt := none, lock := none }

/--
The call `n` makes a step. Every call has a number of its own, and the keys that an enumeration visits
are all that the dictionary has when it starts, in any order and with any that are added later.
-/
def step (s : SharedCache) : Nat × CacheEvent → Option SharedCache
  | (n, event) =>
    match s.calls n, event with
    | .idle, .tryGet key => some (s.tryGet n key)
    | .idle, .set key codec now => some (s.set n key codec now)
    | .looking key, .look =>
      match s.entries[key]? with
      | none => some (s.setCall n (.returned .Unknown))
      | some entry => some (s.setCall n (.found key entry))
    | .found key entry, .check now =>
      if entry.expires ≤ now then some (s.setCall n (.removing key))
      else some (s.setCall n (.returned entry.codec))
    | .removing key, .remove => some { s.setCall n .owing with entries := s.entries.erase key }
    | .storing key entry, .store =>
      some { s.setCall n .owing with entries := s.entries.insert key entry }
    | .owing, .acquire now order => s.acquire n now order
    | .saving now (key :: order) values, .visit =>
      some (s.setCall n (.saving now order (taken s.entries now key values)))
    | .saving now [] values, .replace replacement => some (s.replace n now values replacement)
    | _, _ => none

def meaning (file : Option Items) (key : Bytes) : Option Entry :=
  (file.bind fun values => lookup values key).filter fun entry => entry.codec ≠ .Unknown

structure Collected (entries : Items) (now : Int) (order : List Bytes) (values : Items) : Prop where
  nodup : order.Nodup
  left : ∀ key ∈ order, lookup values key = none
  visited : ∀ key ∉ order, lookup values key = live Entry.expires now (lookup entries key)

structure Inv : Prop where
  saves : saves s.ttlSeconds s.filePath = true
  holder : ∀ n now order values, s.calls n = .saving now order values → s.lock = some n
  locked : ∀ n, s.lock = some n → ∃ now order values, s.calls n = .saving now order values
  known : ∀ key entry, lookup s.entries key = some entry → entry.codec ≠ .Unknown
  storing : ∀ n key entry, s.calls n = .storing key entry → entry.codec ≠ .Unknown
  file : (∀ n, s.calls n ≠ .owing) → s.lock = none → ∀ t, s.savedAt = some t →
    Agree Entry.expires t (meaning s.file) (lookup s.entries)
  collected : (∀ n, s.calls n ≠ .owing) → ∀ n now order values,
    s.calls n = .saving now order values → Collected s.entries now order values

variable {s} {s' : SharedCache} {n : Nat} {call : CacheCall} {key : Bytes} {entry : Entry} {now : Int}
  {order : List Bytes} {values : Items}

@[simp]
theorem setCall_self : (s.setCall n call).calls n = call := Function.update_self ..

theorem setCall_of_ne {m : Nat} (h : m ≠ n) : (s.setCall n call).calls m = s.calls m :=
  Function.update_of_ne h ..

theorem not_owing_of_setCall (hnot : s.calls n ≠ .owing) (h : ∀ m, (s.setCall n call).calls m ≠ .owing)
    : ∀ m, s.calls m ≠ .owing := by
  intro m hm
  by_cases hmn : m = n
  . rw [hmn] at hm
    exact hnot hm
  . apply h m
    rw [setCall_of_ne hmn, hm]

theorem saving_of_setCall {m : Nat} (hcall : ∀ now order values, call ≠ .saving now order values)
    (h : (s.setCall n call).calls m = .saving now order values) : s.calls m = .saving now order values := by
  by_cases hmn : m = n
  . rw [hmn, setCall_self] at h
    exact absurd h (hcall now order values)
  . rwa [setCall_of_ne hmn] at h

theorem storing_of_setCall {m : Nat} (hcall : ∀ key entry, call ≠ .storing key entry)
    (h : (s.setCall n call).calls m = .storing key entry) : s.calls m = .storing key entry := by
  by_cases hmn : m = n
  . rw [hmn, setCall_self] at h
    exact absurd h (hcall key entry)
  . rwa [setCall_of_ne hmn] at h

theorem locked_of_setCall (h : s.Inv) (hnot : ∀ now order values, s.calls n ≠ .saving now order values)
    {m : Nat} (hm : s.lock = some m)
    : ∃ now order values, (s.setCall n call).calls m = .saving now order values := by
  obtain ⟨now, order, values, hcall⟩ := h.locked m hm
  refine ⟨now, order, values, ?_⟩
  rwa [setCall_of_ne]
  rintro rfl
  exact hnot now order values hcall

theorem Inv.move (h : s.Inv) (hnot : s.calls n ≠ .owing)
    (hsaving : ∀ now order values, s.calls n ≠ .saving now order values)
    (hcall : ∀ now order values, call ≠ .saving now order values)
    (hstoring : ∀ key entry, call = .storing key entry → entry.codec ≠ .Unknown)
    : (s.setCall n call).Inv where
  saves := h.saves
  holder m now order values hm := h.holder m now order values (saving_of_setCall hcall hm)
  locked _ := locked_of_setCall h hsaving
  known := h.known
  storing m key entry hm := by
    by_cases hmn : m = n
    . rw [hmn, setCall_self] at hm
      exact hstoring key entry hm
    . rw [setCall_of_ne hmn] at hm
      exact h.storing m key entry hm
  file hquiet := h.file (not_owing_of_setCall hnot hquiet)
  collected hquiet m now order values hm :=
    h.collected (not_owing_of_setCall hnot hquiet) m now order values (saving_of_setCall hcall hm)

theorem Inv.change (h : s.Inv) {entries : Items}
    (hsaving : ∀ now order values, s.calls n ≠ .saving now order values)
    (hknown : ∀ key entry, lookup entries key = some entry → entry.codec ≠ .Unknown)
    : Inv { s.setCall n .owing with entries } where
  saves := h.saves
  holder m now order values hm := h.holder m now order values (saving_of_setCall (by simp) hm)
  locked _ := locked_of_setCall h hsaving
  known := hknown
  storing m key entry hm := h.storing m key entry (storing_of_setCall (by simp) hm)
  file hquiet := absurd setCall_self (hquiet n)
  collected hquiet := absurd setCall_self (hquiet n)

theorem lookup_taken (h : lookup values key = none)
    : lookup (taken s.entries now key values) key = live Entry.expires now (lookup s.entries key) := by
  unfold taken
  rw [lookup, lookup]
  split
  . next entry hentry =>
    rw [hentry, live_some]
    split
    . simp
    . exact h
  . next hnone =>
    rw [hnone, live_none]
    exact h

theorem lookup_taken_of_ne {other : Bytes} (hne : other ≠ key)
    : lookup (taken s.entries now key values) other = lookup values other := by
  unfold taken
  split
  . split
    . rw [lookup_insert, Function.update_of_ne hne]
    . rfl
  . rfl

theorem Collected.start (hnodup : order.Nodup) (hkeys : s.entries.keys.all order.contains)
    : Collected s.entries now order ∅ where
  nodup := hnodup
  left _ _ := by rw [lookup_empty]
  visited key hkey := by
    have habsent : lookup s.entries key = none := by
      by_contra hsome
      have hmem : key ∈ s.entries.keys := by
        rw [Std.TreeMap.mem_keys, Std.TreeMap.mem_iff_isSome_getElem?]
        exact Option.isSome_iff_ne_none.mpr hsome
      exact hkey (by simpa using List.all_eq_true.mp hkeys key hmem)
    rw [lookup_empty, habsent, live_none]

theorem Collected.visit (h : Collected s.entries now (key :: order) values)
    : Collected s.entries now order (taken s.entries now key values) where
  nodup := h.nodup.of_cons
  left other hother := by
    have hne : other ≠ key := fun heq => (List.nodup_cons.mp h.nodup).1 (heq ▸ hother)
    rw [lookup_taken_of_ne hne]
    exact h.left other (List.mem_cons_of_mem _ hother)
  visited other hother := by
    by_cases heq : other = key
    . rw [heq]
      exact lookup_taken (h.left key List.mem_cons_self)
    . rw [lookup_taken_of_ne heq]
      apply h.visited
      rintro (_ | ⟨_, hmem⟩)
      . exact heq rfl
      . exact hother hmem

theorem Collected.agree (h : Collected s.entries now [] values)
    (hknown : ∀ key entry, lookup s.entries key = some entry → entry.codec ≠ .Unknown)
    : Agree Entry.expires now (meaning (some values)) (lookup s.entries) := by
  have hmeaning : meaning (some values) = fun key => live Entry.expires now (lookup s.entries key) := by
    funext key
    rw [meaning, Option.bind_some, h.visited key (by simp)]
    cases hlive : live Entry.expires now (lookup s.entries key) with
    | none => rfl
    | some entry =>
      have hcodec := hknown key entry (live_eq_some.mp hlive).1
      simp [Option.filter, hcodec]
  rw [hmeaning]
  exact agree_live _

theorem Inv.acquire (h : s.Inv) (hstep : s.acquire n now order = some s')
    : s'.Inv := by
  unfold SharedCache.acquire at hstep
  rw [h.saves, Bool.not_true, if_neg Bool.false_ne_true] at hstep
  split at hstep <;> cases hstep
  next hfree =>
    obtain ⟨hlock, hnodup, hkeys⟩ := hfree
    have hsaving : ∀ {m now' order' values'}, (s.setCall n (.saving now order ∅)).calls m
        = .saving now' order' values' → m = n ∧ now' = now ∧ order' = order ∧ values' = ∅ := by
      intro m now' order' values' hm
      by_cases hmn : m = n
      . rw [hmn, setCall_self] at hm
        cases hm
        exact ⟨hmn, rfl, rfl, rfl⟩
      . rw [setCall_of_ne hmn] at hm
        exact absurd (h.holder m now' order' values' hm) (by simp [hlock])
    refine ⟨h.saves, ?_, ?_, h.known, ?_, ?_, ?_⟩
    . intro m now' order' values' hm
      rw [(hsaving hm).1]
    . rintro m ⟨⟩
      exact ⟨now, order, ∅, setCall_self⟩
    . intro m key entry hm
      exact h.storing m key entry (storing_of_setCall (by simp) hm)
    . intro _ hnone
      cases hnone
    . intro _ m now' order' values' hm
      obtain ⟨-, rfl, rfl, rfl⟩ := hsaving hm
      exact .start hnodup hkeys

theorem Inv.visit (h : s.Inv) (hcall : s.calls n = .saving now (key :: order) values)
    : (s.setCall n (.saving now order (taken s.entries now key values))).Inv where
  saves := h.saves
  holder m now' order' values' hm := by
    by_cases hmn : m = n
    . rw [hmn]
      exact h.holder n now (key :: order) values hcall
    . rw [setCall_of_ne hmn] at hm
      exact h.holder m now' order' values' hm
  locked m hm := by
    have hsame := h.holder n now (key :: order) values hcall
    have heq : n = m := Option.some.inj (hsame.symm.trans hm)
    exact ⟨now, order, taken s.entries now key values, by rw [← heq, setCall_self]⟩
  known := h.known
  storing m key entry hm := h.storing m key entry (storing_of_setCall (by simp) hm)
  file hquiet := h.file (not_owing_of_setCall (by simp [hcall]) hquiet)
  collected hquiet m now' order' values' hm := by
    have hbefore := h.collected (not_owing_of_setCall (by simp [hcall]) hquiet)
    by_cases hmn : m = n
    . rw [hmn, setCall_self] at hm
      cases hm
      exact (hbefore n _ _ values hcall).visit
    . rw [setCall_of_ne hmn] at hm
      exact hbefore m now' order' values' hm

theorem Inv.replace (h : s.Inv) (hcall : s.calls n = .saving now [] values) (replacement : Replacement)
    : (s.replace n now values replacement).Inv := by
  have hlock := h.holder n now [] values hcall
  have hcalls : (s.replace n now values replacement).calls = (s.setCall n (.returned .Unknown)).calls := by
    cases replacement <;> rfl
  have hentries : (s.replace n now values replacement).entries = s.entries := by
    cases replacement <;> rfl
  -- nobody else can be saving
  have hsaving : ∀ m now' order' values',
      (s.replace n now values replacement).calls m ≠ .saving now' order' values' := by
    intro m now' order' values' hm
    rw [hcalls] at hm
    have hother := saving_of_setCall (by simp) hm
    have hsame := h.holder m now' order' values' hother
    rw [hlock] at hsame
    cases hsame
    rw [setCall_self] at hm
    cases hm
  constructor
  . cases replacement <;> exact h.saves
  . intro m now' order' values' hm
    exact absurd hm (hsaving m now' order' values')
  . intro m hm
    cases replacement <;> cases hm
  . rw [hentries]
    exact h.known
  . intro m key entry hm
    rw [hcalls] at hm
    exact h.storing m key entry (storing_of_setCall (by simp) hm)
  . intro hquiet _ t ht
    rw [hcalls] at hquiet
    cases replacement with
    | replaced =>
      cases ht
      have hcollected := h.collected (not_owing_of_setCall (by simp [hcall]) hquiet) n now [] values hcall
      exact hcollected.agree h.known
    | kept => cases ht
    | lost => cases ht
  . intro _ m now' order' values' hm
    exact absurd hm (hsaving m now' order' values')

theorem Inv.step {event : Nat × CacheEvent} (h : s.Inv) (hstep : s.step event = some s') : s'.Inv := by
  obtain ⟨n, event⟩ := event
  simp only [SharedCache.step] at hstep
  split at hstep
  . next key hcall =>
    cases hstep
    unfold tryGet
    split <;> exact h.move (by simp [hcall]) (by simp [hcall]) (by simp) (by simp)
  . next key codec now hcall =>
    cases hstep
    unfold SharedCache.set
    split
    . exact h.move (by simp [hcall]) (by simp [hcall]) (by simp) (by simp)
    . next hknown =>
      apply h.move (by simp [hcall]) (by simp [hcall]) (by simp)
      rintro _ _ ⟨rfl, rfl⟩ hunknown
      simp_all
  . next key hcall =>
    split at hstep <;> cases hstep <;> exact h.move (by simp [hcall]) (by simp [hcall]) (by simp) (by simp)
  . next key entry now hcall =>
    split at hstep <;> cases hstep <;> exact h.move (by simp [hcall]) (by simp [hcall]) (by simp) (by simp)
  . next key hcall =>
    cases hstep
    apply h.change (by simp [hcall])
    intro other entry hentry
    rw [lookup_erase] at hentry
    by_cases heq : other = key
    . rw [heq, Function.update_self] at hentry
      cases hentry
    . rw [Function.update_of_ne heq] at hentry
      exact h.known other entry hentry
  . next key entry hcall =>
    cases hstep
    apply h.change (by simp [hcall])
    intro other entry' hentry
    rw [lookup_insert] at hentry
    by_cases heq : other = key
    . rw [heq, Function.update_self] at hentry
      cases hentry
      exact h.storing n key _ hcall
    . rw [Function.update_of_ne heq] at hentry
      exact h.known other entry' hentry
  . exact h.acquire hstep
  . next now key order values hcall =>
    cases hstep
    exact h.visit hcall
  . next now values replacement hcall =>
    cases hstep
    exact h.replace hcall replacement
  . cases hstep

theorem lookup_load {ttlSeconds : Int} {filePath : String} {file : Option Items} {later : Int}
    (hsaves : SharedCache.saves ttlSeconds filePath)
    : lookup (load ttlSeconds filePath file later)
        = fun key => live Entry.expires later (meaning file key) := by
  funext key
  unfold load meaning
  cases file with
  | none =>
    rw [lookup_empty]
    rfl
  | some values =>
    simp only [hsaves, if_true, lookup, Std.TreeMap.getElem?_filter', Option.bind_some, live,
      Option.filter_filter]
    congr 1
    funext entry
    simp

theorem inv_create {ttlSeconds : Int} {filePath : String} {file : Option Items} {begin : Int}
    (hsaves : SharedCache.saves ttlSeconds filePath) : (create ttlSeconds filePath file begin).Inv where
  saves := hsaves
  holder _ _ _ _ hcall := by cases hcall
  known key entry hentry := by
    rw [create, lookup_load hsaves] at hentry
    have hmeaning := (live_eq_some.mp hentry).1
    simpa using (Option.filter_eq_some_iff.mp hmeaning).2
  locked _ hlock := by cases hlock
  storing _ _ _ hcall := by cases hcall
  file _ _ t ht := by
    cases ht
    rw [create, lookup_load hsaves]
    intro t ht key
    exact (live_live ht _).symm
  collected _ _ _ _ _ hcall := by cases hcall

/--
Whenever no call is under way and the last one that saved could replace the file, a process that starts
later loads from it exactly the entries that have not expired by then, however the calls have run between
each other.
-/
theorem load_of_quiescent {ttlSeconds : Int} {filePath : String} {file : Option Items} {begin t later : Int}
    {events : List (Nat × CacheEvent)} (hsaves : SharedCache.saves ttlSeconds filePath)
    (hrun : Machine.run SharedCache.step (create ttlSeconds filePath file begin) events = some s)
    (hover : ∀ n, (s.calls n).isOver) (hsaved : s.savedAt = some t) (hlater : t ≤ later)
    : lookup (load ttlSeconds filePath s.file later)
        = fun key => live Entry.expires later (lookup s.entries key) := by
  have hinv : s.Inv :=
    Machine.run_invariant (fun _ _ _ h hstep => h.step hstep) (inv_create hsaves) hrun
  have hquiet : ∀ n, s.calls n ≠ .owing := by
    intro n hn
    have hn' := hover n
    rw [hn] at hn'
    cases hn'
  have hfree : s.lock = none := by
    cases hlock : s.lock with
    | none => rfl
    | some n =>
      obtain ⟨now, order, values, hn⟩ := hinv.locked n hlock
      have hn' := hover n
      rw [hn] at hn'
      cases hn'
  rw [lookup_load hsaves]
  funext key
  exact hinv.file hquiet hfree t hsaved later hlater key

-- The second call stores its entry while the first one saves, and saves it on its own later.
def twoSets : List (Nat × CacheEvent) :=
  [(0, .set [1] .H264 0), (0, .store), (1, .set [2] .H265 5), (0, .acquire 6 [[1]]), (1, .store),
    (0, .visit), (0, .replace .replaced), (1, .acquire 7 [[2], [1]]), (1, .visit), (1, .visit),
    (1, .replace .replaced)]

theorem calls_of_step {event : Nat × CacheEvent} {m : Nat} (hm : event.1 ≠ m)
    (hstep : s.step event = some s') : s'.calls m = s.calls m := by
  obtain ⟨n, event⟩ := event
  have hset : ∀ call, (s.setCall n call).calls m = s.calls m := fun _ => setCall_of_ne (Ne.symm hm)
  simp only [SharedCache.step, tryGet, SharedCache.set, acquire, replace] at hstep
  grind

theorem load_of_quiescent_sample
    : ∃ s, Machine.run SharedCache.step (create 900 "cache.json" none 0) twoSets = some s
        ∧ lookup (load 900 "cache.json" s.file 8)
          = fun key => live Entry.expires 8 (lookup s.entries key) := by
  have hends : (Machine.run SharedCache.step (create 900 "cache.json" none 0) twoSets).map
      (fun s => (s.savedAt, (s.calls 0).isOver, (s.calls 1).isOver)) = some (some 7, true, true) := by
    decide +kernel
  obtain ⟨s, hrun, hs⟩ := Option.map_eq_some_iff.mp hends
  rw [Prod.mk.injEq, Prod.mk.injEq] at hs
  obtain ⟨hsaved, hfirst, hsecond⟩ := hs
  refine ⟨s, hrun, load_of_quiescent (by decide) hrun ?_ hsaved (by decide)⟩
  intro n
  rcases n with _ | _ | n
  . exact hfirst
  . exact hsecond
  have hother : s.calls (n + 2) = .idle :=
    Machine.run_invariant_of_meets (I := fun s => s.calls (n + 2) = .idle)
      (P := fun _ e => e.1 ≠ n + 2) (fun _ _ _ hs hne hstep => (calls_of_step hne hstep).trans hs) rfl
      (Machine.meets_of_forall (by simp [twoSets])) hrun
  rw [hother]
  rfl

end SharedCache
end HikBridge.VideoCodecCache
