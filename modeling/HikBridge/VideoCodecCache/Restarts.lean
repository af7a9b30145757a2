import HikBridge.VideoCodecCache.RoundTrip
import Mathlib.Data.List.Induction

/-!
This module contains the meaning of the codec cache over its calls and the restarts of its process:
it remembers the last codec that was set for each source until the lifetime of that codec is over.
-/

namespace HikBridge

namespace VideoCodecCache

open Expiring

def Event.Writes (source : Source) : Event → Prop
  | .set request codec _ _ => request.source = source ∧ codec ≠ .Unknown
  | _ => False

def Remembers (ttl : Int) (events : List Event) (source : Source) (t : Int)
    (codec : DetectedVideoCodec) : Prop :=
  ∃ before request now saved after,
    events = before ++ .set request codec now saved :: after
      ∧ Event.Writes source (.set request codec now saved)
      ∧ (∀ event ∈ after, ¬ event.Writes source)
      ∧ t < now + ttl

def record (ttl : Int) (latest : Bytes → Option Entry) : Event → Bytes → Option Entry
  | .set request codec now _ =>
    if codec = .Unknown then
      latest
    else
      Function.update latest (makeKey request) (some ⟨codec, now + ttl⟩)
  | _ => latest

structure Holds (ttl : Int) (cacheFile : Bytes) (latest : Bytes → Option Entry) (w : World)
    : Prop where
  ttl : w.cache.ttl = ttl
  cacheFile : w.cache.cacheFile = cacheFile
  valid : ∀ key entry, lookup w.cache.items key = some entry → Valid key entry
  process : Agree Entry.expires w.clock (lookup w.cache.items) latest
  file : ∃ f, Saved w.disk.file f ∧ Agree Entry.expires w.clock f latest

section

variable {ttl now saved : Int} {cacheFile : Bytes} {w w' : World} {latest : Bytes → Option Entry}
  {request : StreamRequest} {codec : DetectedVideoCodec}

theorem Holds.later (h : Holds ttl cacheFile latest w) (hle : w.clock ≤ now)
    : Holds ttl cacheFile latest { w with clock := now } := by
  obtain ⟨f, hsaved, hagree⟩ := h.file
  exact {
    ttl := h.ttl
    cacheFile := h.cacheFile
    valid := h.valid
    process := h.process.mono hle
    file := ⟨f, hsaved, hagree.mono hle⟩
  }

theorem Holds.persistLocked (httl : 0 < ttl) (hfile : cacheFile ≠ [])
    (h : Holds ttl cacheFile latest w) {items : Items} {latest' : Bytes → Option Entry}
    (hvalid : ∀ key entry, lookup items key = some entry → Valid key entry)
    (hprocess : Agree Entry.expires saved (lookup items) latest')
    : Holds ttl cacheFile latest'
        ⟨{ w.cache with items := items },
          w.disk.applyAll (Cache.persistLocked { w.cache with items := items } saved), saved⟩ := by
  have hround := saved_persistLocked { w.cache with items := items } saved (h.ttl ▸ httl)
    (h.cacheFile ▸ hfile) hvalid w.disk
  exact {
    ttl := h.ttl
    cacheFile := h.cacheFile
    valid := hvalid
    process := hprocess
    file := ⟨_, hround, (agree_live (lookup items)).trans hprocess⟩
  }

theorem holds_set (httl : 0 < ttl) (hfile : cacheFile ≠ []) (h : Holds ttl cacheFile latest w)
    (hclock : w.clock ≤ now) (hsaved : now ≤ saved) (hlow : -2 ^ 63 ≤ now)
    (hhigh : now + ttl < 2 ^ 63)
    : Holds ttl cacheFile (record ttl latest (.set request codec now saved))
        ⟨(w.cache.set request codec now saved).1,
          w.disk.applyAll (w.cache.set request codec now saved).2, saved⟩ := by
  unfold Cache.set record
  dsimp only
  by_cases hcodec : codec = .Unknown
  . have hguard : w.cache.ttl ≤ 0 ∨ codec ≠ .H264 ∧ codec ≠ .H265 := by simp [hcodec]
    rw [if_pos hguard, if_pos hcodec]
    exact h.later (by omega)
  . have hguard : ¬ (w.cache.ttl ≤ 0 ∨ codec ≠ .H264 ∧ codec ≠ .H265) := by
      have hknown : codec = .H264 ∨ codec = .H265 := by
        cases codec <;> simp at hcodec ⊢
      rw [h.ttl]
      simp only [not_or, not_and_or, not_not]
      exact ⟨by omega, hknown⟩
    rw [if_neg hguard, if_neg hcodec]
    dsimp only
    have hentry : Valid (makeKey request) ⟨codec, now + ttl⟩ := by
      refine ⟨makeKey_ne_nil request, hcodec, ?_⟩
      unfold IsTime
      dsimp only
      omega
    apply h.persistLocked httl hfile
    . intro key entry hlookup
      rw [lookup_insert, h.ttl] at hlookup
      by_cases hkey : key = makeKey request
      . rw [hkey, Function.update_self] at hlookup
        cases hlookup
        rw [hkey]
        exact hentry
      . rw [Function.update_of_ne hkey] at hlookup
        exact h.valid key entry hlookup
    . rw [lookup_insert, h.ttl]
      exact (h.process.mono (by omega)).update _ _

theorem holds_tryGet (httl : 0 < ttl) (hfile : cacheFile ≠ []) (h : Holds ttl cacheFile latest w)
    (hclock : w.clock ≤ now) (hsaved : now ≤ saved)
    : Holds ttl cacheFile latest
        ⟨(w.cache.tryGet request now saved).cache,
          w.disk.applyAll (w.cache.tryGet request now saved).ops, saved⟩ := by
  unfold Cache.tryGet
  rw [if_neg (by rw [h.ttl]; omega)]
  split
  . exact h.later (by omega)
  . next entry hfound =>
    split
    . next hexpired =>
      -- The erased entry means nothing to any later lookup.
      apply h.persistLocked httl hfile
      . intro key entry hlookup
        rw [lookup_erase] at hlookup
        by_cases hkey : key = makeKey request
        . rw [hkey, Function.update_self] at hlookup
          contradiction
        . rw [Function.update_of_ne hkey] at hlookup
          exact h.valid key entry hlookup
      . rw [lookup_erase]
        have herase := agree_erase (f := lookup w.cache.items) hfound hexpired
        exact (herase.trans (h.process.mono hclock)).mono hsaved
    . exact h.later (by omega)

theorem holds_restart (httl : 0 < ttl) (hfile : cacheFile ≠ []) (h : Holds ttl cacheFile latest w)
    (hclock : w.clock ≤ now)
    : Holds ttl cacheFile latest
        ⟨Cache.create w.cache.ttl w.cache.cacheFile w.disk.file now, w.disk, now⟩ := by
  obtain ⟨f, hsaved, hagree⟩ := h.file
  have hload := hsaved.loads ttl cacheFile now httl hfile
  have hlater := hagree.mono hclock
  rw [h.ttl, h.cacheFile]
  constructor
  . unfold Cache.create Cache.load
    split
    . rfl
    . split <;> rfl
  . unfold Cache.create Cache.load
    split
    . rfl
    . split <;> rfl
  . intro key entry hlookup
    dsimp only at hlookup
    rw [hload] at hlookup
    exact hsaved.valid key entry (live_eq_some.mp hlookup).1
  . dsimp only
    rw [hload]
    exact (agree_live f).trans hlater
  . exact ⟨f, hsaved, hlater⟩

theorem holds_start (httl : 0 < ttl) (hfile : cacheFile ≠ [])
    : Holds ttl cacheFile (fun _ => none) (start ttl cacheFile now) := by
  have hload := saved_none.loads ttl cacheFile now httl hfile
  constructor
  . unfold start Cache.create Cache.load
    split <;> rfl
  . unfold start Cache.create Cache.load
    split <;> rfl
  . intro key entry hlookup
    unfold start at hlookup
    rw [hload] at hlookup
    contradiction
  . unfold start
    rw [hload]
    apply Agree.refl
  . exact ⟨_, saved_none, Agree.refl _⟩

theorem holds_step (httl : 0 < ttl) (hfile : cacheFile ≠ []) {event : Event}
    (h : Holds ttl cacheFile latest w) (hstep : step w event = some w')
    : Holds ttl cacheFile (record ttl latest event) w' := by
  cases event with
  | set request codec now saved =>
    unfold step at hstep
    dsimp only at hstep
    split at hstep
    . next hguard =>
      cases hstep
      rw [h.ttl] at hguard
      exact holds_set httl hfile h hguard.1 hguard.2.1 hguard.2.2.1 hguard.2.2.2
    . contradiction
  | tryGet request now saved =>
    unfold step at hstep
    dsimp only at hstep
    split at hstep
    . next hguard =>
      cases hstep
      exact holds_tryGet httl hfile h hguard.1 hguard.2
    . contradiction
  | restart now =>
    unfold step at hstep
    dsimp only at hstep
    split at hstep
    . next hguard =>
      cases hstep
      exact holds_restart httl hfile h hguard
    . contradiction

theorem holds_run (httl : 0 < ttl) (hfile : cacheFile ≠ []) {events : List Event}
    (hrun : Machine.run step (start ttl cacheFile now) events = some w)
    : Holds ttl cacheFile (events.foldl (record ttl) fun _ => none) w :=
  Machine.run_refines (R := fun w latest => Holds ttl cacheFile latest w) (f := record ttl)
    (fun _ _ _ _ => holds_step httl hfile) (holds_start httl hfile) hrun

theorem record_of_not_writes {event : Event} (h : ¬ event.Writes request.source)
    : record ttl latest event (makeKey request) = latest (makeKey request) := by
  cases event with
  | set other codec now saved =>
    unfold record
    dsimp only
    split
    . rfl
    . next hcodec =>
      apply Function.update_of_ne
      intro hkey
      exact h ⟨(makeKey_eq_iff.mp hkey).symm, hcodec⟩
  | tryGet other now saved => rfl
  | restart now => rfl

theorem record_of_writes {other : StreamRequest}
    (h : Event.Writes request.source (.set other codec now saved))
    : record ttl latest (.set other codec now saved) (makeKey request)
        =
      some ⟨codec, now + ttl⟩ := by
  unfold record
  dsimp only
  rw [if_neg h.2, makeKey_eq_iff.mpr h.1, Function.update_self]

theorem foldl_record_of_not_writes {events : List Event}
    (h : ∀ event ∈ events, ¬ event.Writes request.source)
    : events.foldl (record ttl) latest (makeKey request) = latest (makeKey request) := by
  induction events generalizing latest with
  | nil => rfl
  | cons event events ih =>
    rw [List.foldl_cons, ih fun e he => h e (by simp [he]), record_of_not_writes (h event (by simp))]

theorem exists_writes_of_foldl_record {events : List Event} {entry : Entry}
    (h : events.foldl (record ttl) (fun _ => none) (makeKey request) = some entry)
    : ∃ before other now saved after,
        events = before ++ .set other entry.codec now saved :: after
          ∧ Event.Writes request.source (.set other entry.codec now saved)
          ∧ (∀ event ∈ after, ¬ event.Writes request.source)
          ∧ entry.expires = now + ttl := by
  induction events using List.reverseRecOn with
  | nil => contradiction
  | append_singleton events event ih =>
    rw [List.foldl_append, List.foldl_cons, List.foldl_nil] at h
    by_cases hwrites : event.Writes request.source
    . cases event with
      | set other codec now saved =>
        rw [record_of_writes hwrites] at h
        cases h
        exact ⟨events, other, now, saved, [], rfl, hwrites, by simp, rfl⟩
      | tryGet other now saved => contradiction
      | restart now => contradiction
    . rw [record_of_not_writes hwrites] at h
      obtain ⟨before, other, now, saved, after, hevents, hset, hafter, hexpires⟩ := ih h
      refine ⟨before, other, now, saved, after ++ [event], by simp [hevents], hset, ?_, hexpires⟩
      intro e he
      rcases List.mem_append.mp he with he | he
      . exact hafter e he
      . rw [List.mem_singleton.mp he]
        exact hwrites

theorem remembers_iff {events : List Event} {t : Int}
    : Remembers ttl events request.source t codec
        ↔
      ∃ entry, live Entry.expires t (events.foldl (record ttl) (fun _ => none) (makeKey request))
          = some entry ∧ entry.codec = codec := by
  constructor
  . intro ⟨before, other, now, saved, after, hevents, hset, hafter, hlt⟩
    refine ⟨⟨codec, now + ttl⟩, ?_, rfl⟩
    rw [hevents, List.foldl_append, List.foldl_cons, foldl_record_of_not_writes hafter,
      record_of_writes hset]
    exact live_some_of_lt hlt
  . intro ⟨entry, hlive, hcodec⟩
    obtain ⟨hlast, hlt⟩ := live_eq_some.mp hlive
    obtain ⟨before, other, now, saved, after, hevents, hset, hafter, hexpires⟩ :=
      exists_writes_of_foldl_record hlast
    subst hcodec
    exact ⟨before, other, now, saved, after, hevents, hset, hafter, by omega⟩

theorem tryGet_eq_live (httl : 0 < ttl) (h : Holds ttl cacheFile latest w)
    (request : StreamRequest) (now saved : Int)
    : ((w.cache.tryGet request now saved).found, (w.cache.tryGet request now saved).codec)
        =
      match live Entry.expires now (lookup w.cache.items (makeKey request)) with
      | none => (false, .Unknown)
      | some entry => (true, entry.codec) := by
  have hguard : ¬ w.cache.ttl ≤ 0 := by
    rw [h.ttl]
    omega
  unfold Cache.tryGet
  rw [if_neg hguard]
  cases hfound : w.cache.items[makeKey request]? with
  | none =>
    unfold lookup
    rw [hfound, live_none]
  | some entry =>
    have hvalid := h.valid _ _ hfound
    unfold lookup
    rw [hfound]
    by_cases hexpired : entry.expires ≤ now
    . simp only [if_pos hexpired, live_some_of_le hexpired]
    . have hknown : entry.codec = .H264 ∨ entry.codec = .H265 := by
        have hcodec := hvalid.codec
        cases hc : entry.codec <;> simp [hc] at hcodec ⊢
      simp [hexpired, live_some_of_lt (Int.not_le.mp hexpired), hknown]

/--
`try_get` finds a codec exactly where it is the last one that was set for the source and its
lifetime is not over, in whichever processes the calls were made. Nothing else of a request matters.
-/
theorem tryGet_iff_remembers {begin : Int} (httl : 0 < ttl) (hfile : cacheFile ≠ [])
    {events : List Event} (hrun : Machine.run step (start ttl cacheFile begin) events = some w)
    (request : StreamRequest) (now saved : Int) (hclock : w.clock ≤ now)
    : (∀ codec, (w.cache.tryGet request now saved).found = true
            ∧ (w.cache.tryGet request now saved).codec = codec
          ↔ Remembers ttl events request.source now codec)
        ∧ ((¬ ∃ codec, Remembers ttl events request.source now codec) →
          (w.cache.tryGet request now saved).found = false
            ∧ (w.cache.tryGet request now saved).codec = .Unknown)
        ∧ (∀ other : StreamRequest, other.source = request.source →
          w.cache.tryGet other now saved = w.cache.tryGet request now saved)
        ∧ ∀ r r' : StreamRequest, makeKey r = makeKey r' ↔ r.source = r'.source := by
  have hholds := holds_run httl hfile hrun
  have hlive := hholds.process now hclock (makeKey request)
  have hget := tryGet_eq_live httl hholds request now saved
  have hiff : ∀ codec, (w.cache.tryGet request now saved).found = true
        ∧ (w.cache.tryGet request now saved).codec = codec
      ↔ Remembers ttl events request.source now codec := by
    intro codec
    rw [remembers_iff, ← hlive]
    split at hget
    . next hnone =>
      injection hget with hfound _
      simp [hfound, hnone]
    . next entry hsome =>
      injection hget with hfound hcodec
      simp [hfound, hcodec, hsome]
  refine ⟨hiff, ?_, ?_, fun r r' => makeKey_eq_iff⟩
  . intro hno
    split at hget
    . injection hget with hfound hcodec
      exact ⟨hfound, hcodec⟩
    . injection hget with hfound _
      exact absurd ⟨_, (hiff _).mp ⟨hfound, rfl⟩⟩ hno
  . intro other hsource
    unfold Cache.tryGet
    rw [makeKey_eq_iff.mpr hsource]

end

def awkward (username : Bytes) : StreamRequest where
  option := .RealPlay
  ip := [10, 9, 0]
  port := 8000
  username := username
  password := []
  camera := 1
  channelType := .Digital
  stream := .Sub
  speed := 0
  start := 0
  stop := 0
  sid := []
  generation := []

def acrossRestart : List Event := [.set (awkward []) .H265 100 101, .restart 104]

theorem tryGet_iff_remembers_restart
    : ∃ w, Machine.run step (start 10 [99] 0) acrossRestart = some w
        ∧ (w.cache.tryGet (awkward [65]) 109 109).found = true
        ∧ (w.cache.tryGet (awkward [65]) 109 109).codec = .H265
        ∧ (w.cache.tryGet (awkward [65]) 110 110).found = false := by
  have hclock : (Machine.run step (start 10 [99] 0) acrossRestart).map World.clock = some 104 := by
    decide +kernel
  obtain ⟨w, hrun, hw⟩ := Option.map_eq_some_iff.mp hclock
  have hlive := tryGet_iff_remembers (by decide) (by decide) hrun (awkward [65]) 109 109
    (by omega : w.clock ≤ 109)
  have hover := tryGet_iff_remembers (by decide) (by decide) hrun (awkward [65]) 110 110
    (by omega : w.clock ≤ 110)
  have hremembers : Remembers 10 acrossRestart (awkward [65]).source 109 .H265 := by
    refine ⟨[], awkward [], 100, 101, [.restart 104], rfl, ⟨rfl, by decide⟩, ?_, by decide⟩
    intro event hevent
    rw [List.mem_singleton.mp hevent]
    exact id
  obtain ⟨hfound, hcodec⟩ := (hlive.1 .H265).mpr hremembers
  refine ⟨w, hrun, hfound, hcodec, (hover.2.1 ?_).1⟩
  intro ⟨codec, before, other, now, saved, after, hevents, _, _, hlt⟩
  have hmem : Event.set other codec now saved ∈ acrossRestart := by simp [hevents]
  simp [acrossRestart] at hmem
  omega

end VideoCodecCache

end HikBridge
