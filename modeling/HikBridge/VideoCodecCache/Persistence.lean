import HikBridge.Lib.Machine
import HikBridge.VideoCodecCache.Basic
import Std.Data.TreeMap.Lemmas

/-!
This module contains the codec cache, the file operations by which it saves itself, and the machine
of its calls and of the restarts of its process. Every `std::time(nullptr)` is a reading of its own.
-/

namespace HikBridge

namespace VideoCodecCache

abbrev Items := Std.TreeMap Bytes Entry

structure Cache where
  ttl : Int
  cacheFile : Bytes
  items : Items

inductive FileOp where
  | createDirectories
  | openTemporary
  | write (text : Bytes)
  | close
  | remove
  | rename
  deriving DecidableEq, Repr

/--
What stands under the path of the cache and under the path of its temporary file.
-/
structure Disk where
  file : Option Bytes := none
  temporary : Option Bytes := none
  deriving DecidableEq, Repr

namespace Disk

def apply (disk : Disk) : FileOp → Disk
  | .createDirectories => disk
  | .openTemporary => { disk with temporary := some [] }
  | .write text => { disk with temporary := disk.temporary.map (· ++ text) }
  | .close => disk
  | .remove => { disk with file := none }
  | .rename =>
    match disk.temporary with
    | none => disk
    | some text => ⟨some text, none⟩

def applyAll (disk : Disk) (ops : List FileOp) : Disk := ops.foldl apply disk

end Disk

namespace Cache

def rows (items : Items) (now : Int) : List Bytes :=
  (items.toList.filter fun item => decide (now < item.2.expires)).map fun item => row item.1 item.2

def persistLocked (cache : Cache) (now : Int) : List FileOp :=
  if cache.ttl ≤ 0 ∨ cache.cacheFile = [] then
    []
  else
    [.createDirectories, .openTemporary] ++
      (rows cache.items now).map (fun line => .write (line ++ [newline])) ++
      [.close, .remove, .rename]

structure Returned where
  found : Bool
  codec : DetectedVideoCodec
  cache : Cache
  ops : List FileOp

/--
The clock reads `now` for the entry and `saved` for the file.
-/
def tryGet (cache : Cache) (request : StreamRequest) (now saved : Int) : Returned :=
  if cache.ttl ≤ 0 then
    ⟨false, .Unknown, cache, []⟩
  else
    match cache.items[makeKey request]? with
    | none => ⟨false, .Unknown, cache, []⟩
    | some entry =>
      if entry.expires ≤ now then
        let erased := { cache with items := cache.items.erase (makeKey request) }
        ⟨false, .Unknown, erased, erased.persistLocked saved⟩
      else
        ⟨entry.codec = .H264 ∨ entry.codec = .H265, entry.codec, cache, []⟩

def set (cache : Cache) (request : StreamRequest) (codec : DetectedVideoCodec) (now saved : Int)
    : Cache × List FileOp :=
  if cache.ttl ≤ 0 ∨ codec ≠ .H264 ∧ codec ≠ .H265 then
    (cache, [])
  else
    let written :=
      { cache with items := cache.items.insert (makeKey request) ⟨codec, now + cache.ttl⟩ }
    (written, written.persistLocked saved)

def loadRow (now : Int) (items : Items) (line : Bytes) : Items :=
  match parseRow line with
  | none => items
  | some (key, entry) =>
    if entry.expires ≤ now ∨ entry.codec = .Unknown then items else items.insert key entry

def load (cache : Cache) (file : Option Bytes) (now : Int) : Cache :=
  if cache.ttl ≤ 0 ∨ cache.cacheFile = [] then
    cache
  else
    match file with
    | none => cache
    | some text =>
      { cache with items := (Delimited.lines newline text).foldl (loadRow now) cache.items }

def create (ttl : Int) (cacheFile : Bytes) (file : Option Bytes) (now : Int) : Cache :=
  load ⟨ttl, cacheFile, ∅⟩ file now

end Cache

structure World where
  cache : Cache
  disk : Disk
  clock : Int

/--
A call holds the lock of the cache from its first reading of the clock to its last.
-/
inductive Event where
  | set (request : StreamRequest) (codec : DetectedVideoCodec) (now saved : Int)
  | tryGet (request : StreamRequest) (now saved : Int)
  | restart (now : Int)

/--
The clock never goes back, and no call is made at a time that `time_t` cannot add the lifetime to.
-/
def step (w : World) : Event → Option World
  | .set request codec now saved =>
    if w.clock ≤ now ∧ now ≤ saved ∧ -2 ^ 63 ≤ now ∧ now + w.cache.ttl < 2 ^ 63 then
      let (cache, ops) := w.cache.set request codec now saved
      some ⟨cache, w.disk.applyAll ops, saved⟩
    else
      none
  | .tryGet request now saved =>
    if w.clock ≤ now ∧ now ≤ saved then
      let returned := w.cache.tryGet request now saved
      some ⟨returned.cache, w.disk.applyAll returned.ops, saved⟩
    else
      none
  | .restart now =>
    if w.clock ≤ now then
      some ⟨Cache.create w.cache.ttl w.cache.cacheFile w.disk.file now, w.disk, now⟩
    else
      none

def start (ttl : Int) (cacheFile : Bytes) (now : Int) : World :=
  ⟨Cache.create ttl cacheFile none now, {}, now⟩

end VideoCodecCache

end HikBridge
