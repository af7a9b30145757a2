import HikBridge.Http.QueryEncoding

/-!
This module contains what the segmentation of a request into the results of `recv` can change: which
bytes, one after the other, `read_http_request` takes no notice of, and the streams for which it
computes one result from every segmentation.
-/

namespace HikBridge

section Trim

variable {value : Bytes} {b : UInt8}

theorem trim_concat_blank (h : isBlank b = true) : trim (value ++ [b]) = trim value := by
  rw [trim_eq, trim_eq, List.dropWhile_append]
  split
  . next hnil =>
    rw [List.isEmpty_iff] at hnil
    rw [hnil]
    simp [h]
  . rw [List.reverse_append, List.reverse_singleton, List.singleton_append,
      List.dropWhile_cons_of_pos h]

theorem trim_concat_of_not_blank (h : isBlank b = false)
    : trim (value ++ [b]) = value.dropWhile isBlank ++ [b] := by
  have hdrop : (value ++ [b]).dropWhile isBlank = value.dropWhile isBlank ++ [b] := by
    rw [List.dropWhile_append]
    split
    . next hnil =>
      rw [List.isEmpty_iff] at hnil
      rw [hnil]
      simp [h]
    . rfl
  rw [trim_eq, hdrop, List.reverse_append, List.reverse_singleton, List.singleton_append,
    List.dropWhile_cons_of_neg (by simp [h])]
  simp

theorem trim_nil : trim [] = [] := rfl

theorem length_trim_le (value : Bytes) : (trim value).length ≤ (value.dropWhile isBlank).length := by
  rw [trim_eq, List.length_reverse]
  apply Nat.le_trans (List.dropWhile_sublist _).length_le
  rw [List.length_reverse]

theorem trim_concat_iff : trim (value ++ [b]) = trim value ↔ isBlank b = true := by
  constructor
  . intro h
    by_contra hblank
    rw [trim_concat_of_not_blank (by simpa using hblank)] at h
    have hlength := congrArg List.length h
    have hle := length_trim_le value
    rw [List.length_append, List.length_singleton] at hlength
    omega
  . exact trim_concat_blank

end Trim

section Headers

variable {line text headers : Bytes} {b : UInt8} {entries : List (Bytes × Bytes)}

theorem headerField_of_not_mem (h : 58 ∉ line) : headerField line = none := by
  unfold headerField
  rw [if_neg h]

theorem headerField_append {name : Bytes} (h : 58 ∉ name) (value : Bytes)
    : headerField (name ++ 58 :: value) = some (name.map toLower, trim value) := by
  unfold headerField
  rw [if_pos (by simp), splitAtFirst_append h]

theorem headerField_cr : headerField [13] = none := headerField_of_not_mem (by decide)

theorem lastValue_concat (key : Bytes) (entry : Bytes × Bytes)
    : lastValue key (entries ++ [entry])
        =
      if entry.1 = key then some entry.2 else lastValue key entries := by
  unfold lastValue
  by_cases h : entry.1 = key
  . simp [List.filter_append, h]
  . simp [List.filter_append, h]

local instance lawfulBEq_bytes : LawfulBEq Bytes := inferInstance

def scannedFields (scanned : List Bytes × Bytes) : List (Bytes × Bytes) :=
  if [13] ∈ scanned.1 then
    (scanned.1.takeWhile (· != [13])).filterMap headerField
  else
    scanned.1.filterMap headerField ++ (headerField scanned.2).toList

theorem bne_cr_of_not_mem {lines : List Bytes} (h : [13] ∉ lines)
    : ∀ line ∈ lines, (line != [13]) = true := by
  intro line hline
  rw [bne_iff_ne]
  rintro rfl
  exact h hline

theorem scannedFields_of_end {closed more : List Bytes} (h : [13] ∈ closed) (line line' : Bytes)
    : scannedFields (closed ++ more, line') = scannedFields (closed, line) := by
  rcases List.eq_append_cons_of_mem h with ⟨before, after, rfl, hbefore⟩
  have hall := bne_cr_of_not_mem hbefore
  unfold scannedFields
  rw [if_pos (by simp), if_pos (by simp)]
  dsimp only
  rw [List.append_assoc, List.cons_append, List.takeWhile_append_of_pos hall,
    List.takeWhile_append_of_pos hall, List.takeWhile_cons_of_neg (by simp),
    List.takeWhile_cons_of_neg (by simp)]

theorem scannedFields_newline (closed : List Bytes) (line : Bytes)
    : scannedFields (closed ++ [line], []) = scannedFields (closed, line) := by
  by_cases hend : [13] ∈ closed
  . exact scannedFields_of_end hend line []
  . unfold scannedFields
    rw [if_neg hend]
    dsimp only
    by_cases hcr : line = [13]
    . rw [hcr, if_pos (by simp), List.takeWhile_append_of_pos (bne_cr_of_not_mem hend),
        List.takeWhile_cons_of_neg (by simp), headerField_cr, List.append_nil, Option.toList_none,
        List.append_nil]
    . have hline : [13] ∉ closed ++ [line] := by
        simp [hend, Ne.symm hcr]
      rw [if_neg hline, headerField_of_not_mem List.not_mem_nil, List.filterMap_append]
      cases hfield : headerField line with
      | none => simp [hfield]
      | some field => simp [hfield]

theorem readHeaders_scan (text key : Bytes)
    : readHeaders Query.empty (Delimited.lines 10 text) key
        =
      lastValue key (scannedFields (Delimited.scan 10 text)) := by
  rw [readHeaders_apply, Delimited.lines_eq_scan]
  generalize Delimited.scan 10 text = scanned
  unfold scannedFields
  congr 1
  by_cases hend : [13] ∈ scanned.1
  . rw [if_pos hend]
    rcases List.eq_append_cons_of_mem hend with ⟨before, after, hclosed, hbefore⟩
    have hall := bne_cr_of_not_mem hbefore
    rw [hclosed, List.append_assoc, List.cons_append, List.takeWhile_append_of_pos hall,
      List.takeWhile_append_of_pos hall, List.takeWhile_cons_of_neg (by simp),
      List.takeWhile_cons_of_neg (by simp)]
  . rw [if_neg hend, List.takeWhile_append_of_pos (bne_cr_of_not_mem hend), List.filterMap_append]
    congr 1
    split
    . next hnil =>
      rw [hnil, headerField_of_not_mem List.not_mem_nil]
      rfl
    . by_cases hcr : scanned.2 = [13]
      . rw [hcr, headerField_cr]
        rfl
      . rw [List.takeWhile_cons_of_pos (by simpa using hcr)]
        cases hfield : headerField scanned.2 with
        | none => simp [hfield]
        | some field => simp [hfield]

/--
The header text ends its fields before `b`, or `b` closes a line, is a blank of a value, stands in a
name or gives the empty value to a name that has it already.
-/
def QuietInHeaders (text : Bytes) (b : UInt8) : Prop :=
  let (closed, line) := Delimited.scan 10 text
  [13] ∈ closed
    ∨ b = 10
    ∨ (58 ∈ line ∧ isBlank b = true)
    ∨ (58 ∉ line ∧ (b = 58 → lastValue (line.map toLower) (closed.filterMap headerField) = some []))

theorem lastValue_entry_inj {name value value' : Bytes}
    : (∀ key, lastValue key (entries ++ [(name, value')]) = lastValue key (entries ++ [(name, value)]))
        ↔
      value' = value := by
  constructor
  . intro h
    have hname := h name
    rw [lastValue_concat, lastValue_concat, if_pos rfl, if_pos rfl] at hname
    exact Option.some.inj hname
  . rintro rfl key
    rfl

theorem lastValue_entry_absorbed {name value : Bytes}
    : (∀ key, lastValue key (entries ++ [(name, value)]) = lastValue key entries)
        ↔
      lastValue name entries = some value := by
  constructor
  . intro h
    have hname := h name
    rw [lastValue_concat, if_pos rfl] at hname
    exact hname.symm
  . intro h key
    rw [lastValue_concat]
    split
    . next hkey =>
      rw [← hkey, h]
    . rfl

theorem openField_iff (closed : List (Bytes × Bytes)) (line : Bytes) (b : UInt8)
    : (∀ key, lastValue key (closed ++ (headerField (line ++ [b])).toList)
          = lastValue key (closed ++ (headerField line).toList))
        ↔
      (58 ∈ line ∧ isBlank b = true)
        ∨ (58 ∉ line ∧ (b = 58 → lastValue (line.map toLower) closed = some [])) := by
  by_cases hcolon : 58 ∈ line
  . rcases List.eq_append_cons_of_mem hcolon with ⟨name, value, rfl, hname⟩
    rw [List.append_assoc, List.cons_append, headerField_append hname, headerField_append hname]
    simp only [Option.toList_some]
    rw [lastValue_entry_inj, trim_concat_iff]
    simp
  . rw [headerField_of_not_mem hcolon]
    simp only [hcolon, false_and, false_or, not_false_iff, true_and, Option.toList_none,
      List.append_nil]
    by_cases hb : b = 58
    . rw [hb, headerField_append hcolon]
      simp only [Option.toList_some, trim_nil, true_implies]
      exact lastValue_entry_absorbed
    . rw [headerField_of_not_mem (by simp [hcolon, Ne.symm hb])]
      simp [hb]

theorem readHeaders_concat_iff (text : Bytes) (b : UInt8)
    : readHeaders Query.empty (Delimited.lines 10 (text ++ [b]))
          = readHeaders Query.empty (Delimited.lines 10 text)
        ↔
      QuietInHeaders text b := by
  rw [funext_iff]
  simp only [readHeaders_scan, Delimited.scan_concat]
  unfold QuietInHeaders
  generalize Delimited.scan 10 text = scanned
  rcases scanned with ⟨closed, line⟩
  unfold Delimited.scanStep
  dsimp only
  by_cases hend : [13] ∈ closed
  . have hsame := @scannedFields_of_end closed [] hend
    rw [List.append_nil] at hsame
    split
    . simp only [scannedFields_newline, hend, true_or, implies_true]
    . simp only [hsame line, hend, true_or, implies_true]
  . by_cases hb : b = 10
    . rw [if_pos hb]
      simp only [scannedFields_newline, hb, true_or, or_true, implies_true]
    . simp only [if_neg hb, scannedFields, if_neg hend]
      rw [openField_iff]
      simp only [hend, hb, false_or]

end Headers

section Raw

variable {raw sent : Bytes} {b : UInt8}

def requestLine (line : Bytes) : Option (Bytes × Bytes) :=
  match Search.word? Bytes.isSpace line with
  | none => none
  | some (method, line) =>
    match Search.word? Bytes.isSpace line with
    | none => none
    | some (target, line) =>
      match Search.word? Bytes.isSpace line with
      | none => none
      | some _ => some (method, target)

theorem parseHttpRequest_eq (raw : Bytes)
    : parseHttpRequest raw
        =
      match Search.cut crlf raw with
      | none => .error (badRequest "HTTP 请求无效")
      | some (line, headers) =>
        match requestLine line with
        | none => .error (badRequest "HTTP 请求行无效")
        | some (method, target) =>
          .ok (.ofTarget method target (readHeaders Query.empty (Delimited.lines 10 headers))) := by
  unfold parseHttpRequest requestLine
  repeat' split
  all_goals simp_all

/--
The next byte does not end the request line of a request that has none yet, or the request line is
invalid, or the headers take no notice of the byte.
-/
def Quiet (raw : Bytes) (b : UInt8) : Prop :=
  match Search.cut crlf raw with
  | none => ¬(raw.getLast? = some 13 ∧ b = 10)
  | some (line, headers) => requestLine line = none ∨ QuietInHeaders headers b

theorem cut_concat_eq_none_iff (h : Search.cut crlf raw = none)
    : Search.cut crlf (raw ++ [b]) = none ↔ ¬(raw.getLast? = some 13 ∧ b = 10) := by
  constructor
  . rintro hnone ⟨hlast, rfl⟩
    rcases List.getLast?_eq_some_iff.mp hlast with ⟨line, rfl⟩
    rcases Search.exists_cut crlf line [] with ⟨before, after, hcut, -⟩
    rw [List.append_assoc, show [13] ++ [10] = crlf ++ [] from rfl, hcut] at hnone
    contradiction
  . intro hquiet
    cases hcut : Search.cut crlf (raw ++ [b]) with
    | none => rfl
    | some found =>
      rcases found with ⟨line, after⟩
      have htext := Search.cut_eq hcut
      rcases List.eq_nil_or_concat after with rfl | ⟨rest, last, rfl⟩
      . -- The two bytes end the text, so `b` is the second of them.
        have hsplit : raw ++ [b] = (line ++ [13]) ++ [10] := by
          simpa [crlf] using htext
        rcases List.append_inj' hsplit rfl with ⟨hraw, hb⟩
        exfalso
        apply hquiet
        rw [hraw]
        exact ⟨by simp, by simpa using hb⟩
      . have hlength := congrArg List.length htext
        simp only [List.concat_eq_append, List.length_append, List.length_singleton] at hlength
        rcases Search.cut_of_append hcut (by omega) with ⟨rest, hraw, -⟩
        rw [h] at hraw
        contradiction

theorem parseHttpRequest_concat_iff
    : parseHttpRequest (raw ++ [b]) = parseHttpRequest raw ↔ Quiet raw b := by
  rw [parseHttpRequest_eq, parseHttpRequest_eq]
  unfold Quiet
  cases hcut : Search.cut crlf raw with
  | none =>
    rw [← cut_concat_eq_none_iff hcut]
    cases hmore : Search.cut crlf (raw ++ [b]) with
    | none => simp
    | some found =>
      -- The two errors differ in their messages.
      rcases found with ⟨line, headers⟩
      dsimp only
      cases requestLine line with
      | none => simp [badRequest]
      | some words => simp
  | some found =>
    rcases found with ⟨line, headers⟩
    rw [Search.cut_append [b] hcut]
    dsimp only
    cases hline : requestLine line with
    | none => simp
    | some words =>
      rw [← readHeaders_concat_iff]
      simp [HttpRequest.ofTarget]

end Raw

section Segments

variable {raw raw' sent : Bytes} {rounds rest : List ReadRound}

/--
Rounds in which the bytes of `sent` arrive, in pieces that `recv` can return.
-/
structure Segmentation (sent : Bytes) (rounds : List ReadRound) : Prop where
  round : ∀ round ∈ rounds, round = .idle
    ∨ ∃ chunk, round = .received chunk ∧ 1 ≤ chunk.length ∧ chunk.length ≤ 4096
  delivered_eq : delivered rounds = sent

/--
All segmentations of `sent` give one outcome, whatever comes behind them.
-/
def SegmentationIndependent (sent : Bytes) : Prop :=
  ∀ rounds rounds' rest, Segmentation sent rounds → Segmentation sent rounds'
    → readHttpRequest (rounds ++ rest) = readHttpRequest (rounds' ++ rest)

theorem receiveHead_append_some {outcome : Except Exn Bytes}
    (h : receiveHead raw rounds = some outcome)
    : receiveHead raw (rounds ++ rest) = some outcome := by
  induction rounds generalizing raw with
  | nil =>
    unfold receiveHead at h
    split at h
    . next hcomplete =>
      cases rest with
      | nil => simpa [receiveHead, hcomplete] using h
      | cons round rest => simpa [receiveHead, hcomplete] using h
    . contradiction
  | cons round rounds ih =>
    rw [List.cons_append]
    unfold receiveHead at h ⊢
    split at h
    . next hcomplete => rw [if_pos hcomplete, h]
    . next hcomplete =>
      rw [if_neg hcomplete]
      cases round with
      | stopped => exact h
      | deadline => exact h
      | closed => exact h
      | idle => exact ih h
      | received chunk => exact ih h

theorem receiveHead_append_incomplete
    (hinput : ∀ round ∈ rounds, round = .idle ∨ ∃ chunk, round = .received chunk)
    (h : headComplete (raw ++ delivered rounds) = false)
    : receiveHead raw (rounds ++ rest) = receiveHead (raw ++ delivered rounds) rest := by
  induction rounds generalizing raw with
  | nil => simp [delivered]
  | cons round rounds ih =>
    rcases List.forall_mem_cons.mp hinput with ⟨hround, hrounds⟩
    have hraw : headComplete raw = false := by
      by_contra hcomplete
      rw [Bool.not_eq_false] at hcomplete
      rw [headComplete_append _ hcomplete] at h
      contradiction
    rw [List.cons_append]
    conv_lhs => unfold receiveHead
    rw [if_neg (by simp [hraw])]
    rw [delivered_cons] at h ⊢
    rcases hround with rfl | ⟨chunk, rfl⟩
    . exact ih hrounds h
    . rw [← List.append_assoc] at h ⊢
      exact ih hrounds h

theorem length_of_receiveHead (hsize : ∀ chunk, .received chunk ∈ rounds → chunk.length ≤ 4096)
    (hraw : raw.length < 16384 + 4096) (h : receiveHead raw rounds = some (.ok raw'))
    : raw'.length < 16384 + 4096 := by
  induction rounds generalizing raw with
  | nil =>
    unfold receiveHead at h
    split at h
    . cases h
      exact hraw
    . contradiction
  | cons round rounds ih =>
    have hrounds : ∀ chunk, .received chunk ∈ rounds → chunk.length ≤ 4096 :=
      fun chunk hchunk => hsize chunk (List.mem_cons_of_mem _ hchunk)
    unfold receiveHead at h
    split at h
    . cases h
      exact hraw
    . next hcomplete =>
      cases round with
      | stopped => cases h
      | deadline => cases h
      | closed => cases h
      | idle => exact ih hrounds hraw h
      | received chunk =>
        have hchunk := hsize chunk List.mem_cons_self
        have hlimit : raw.length < 16384 := by
          simp only [headComplete, Bool.or_eq_true, decide_eq_true_eq, not_or, not_le] at hcomplete
          exact hcomplete.2
        apply ih hrounds _ h
        rw [List.length_append]
        omega

theorem Segmentation.input (h : Segmentation sent rounds)
    : ∀ round ∈ rounds, round = .idle ∨ ∃ chunk, round = .received chunk := by
  intro round hround
  rcases h.round round hround with hidle | ⟨chunk, hchunk, -⟩
  . exact .inl hidle
  . exact .inr ⟨chunk, hchunk⟩

theorem Segmentation.arrives (h : Segmentation sent rounds)
    : ∀ round ∈ rounds, round ≠ .stopped ∧ round ≠ .deadline ∧ round ≠ .closed := by
  intro round hround
  rcases h.round round hround with rfl | ⟨chunk, rfl, -⟩
  . simp
  . simp

theorem Segmentation.exists_raw (h : Segmentation sent rounds) (hcomplete : headComplete sent = true)
    (rest : List ReadRound)
    : ∃ raw, receiveHead [] (rounds ++ rest) = some (.ok raw)
        ∧ raw <+: sent
        ∧ headComplete raw = true
        ∧ raw.length < 16384 + 4096 := by
  have hall : headComplete ([] ++ delivered rounds) = true := by
    rw [List.nil_append, h.delivered_eq]
    exact hcomplete
  rcases receiveHead_isSome h.arrives hall with ⟨raw, hraw⟩
  rcases receiveHead_ok hraw with ⟨hprefix', hend⟩
  rw [List.nil_append, h.delivered_eq] at hprefix'
  have hsize : ∀ chunk, .received chunk ∈ rounds → chunk.length ≤ 4096 := by
    intro chunk hchunk
    rcases h.round _ hchunk with hidle | ⟨piece, hpiece, -, hle⟩
    . contradiction
    . cases hpiece
      exact hle
  exact ⟨raw, receiveHead_append_some hraw, hprefix', hend,
    length_of_receiveHead hsize (by simp) hraw⟩

/--
The bytes of `sent` that are received with the limit or not, as the last piece has it, change
nothing.
-/
def SteadyAtLimit (sent : Bytes) : Prop :=
  ∀ k, ∀ (h : k < sent.length), 16384 ≤ k → k + 1 < 16384 + 4096 → Quiet (sent.take k) sent[k]

theorem parse_take_of_steady (h : SteadyAtLimit sent) {k : Nat} (hlimit : 16384 ≤ k)
    (hsize : k < 16384 + 4096) (hk : k ≤ sent.length)
    : parseHttpRequest (sent.take k) = parseHttpRequest (sent.take 16384) := by
  induction k, hlimit using Nat.le_induction with
  | base => rfl
  | succ k hlimit ih =>
    have hquiet := h k (by omega) hlimit hsize
    rw [← List.take_append_getElem (by omega), parseHttpRequest_concat_iff.mpr hquiet]
    exact ih (by omega) (by omega)

theorem limit_le_of_headComplete (hraw : raw <+: sent) (hcomplete : headComplete raw = true)
    (hlong : headComplete (sent.take 16383) = false) : 16384 ≤ raw.length := by
  by_contra hlt
  have hprefix' : raw <+: sent.take 16383 := by
    rw [List.prefix_take_iff]
    exact ⟨hraw, by omega⟩
  rcases hprefix' with ⟨more, hmore⟩
  rw [← hmore, headComplete_append more hcomplete] at hlong
  contradiction

theorem exists_head (hshort : headComplete (sent.take 16383) = true)
    : ∃ head body, Search.cut (crlf ++ crlf) sent = some (head, body)
        ∧ head.length + 4 ≤ 16383 := by
  have hlength : (sent.take 16383).length ≤ 16383 := List.length_take_le _ _
  simp only [headComplete, Bool.or_eq_true, decide_eq_true_eq] at hshort
  rcases hshort with hcut | hlimit
  . rcases Option.isSome_iff_exists.mp hcut with ⟨⟨head, body⟩, hcut⟩
    have hhead := Search.length_le_of_cut hcut
    have hsent := Search.cut_append (sent.drop 16383) hcut
    rw [List.take_append_drop] at hsent
    refine ⟨head, _, hsent, ?_⟩
    rw [show (crlf ++ crlf).length = 4 from rfl] at hhead
    omega
  . omega

theorem parse_eq_of_head (hshort : headComplete (sent.take 16383) = true) (hraw : raw <+: sent)
    (hraw' : raw' <+: sent) (hcomplete : headComplete raw = true)
    (hcomplete' : headComplete raw' = true) : parseHttpRequest raw = parseHttpRequest raw' := by
  rcases exists_head hshort with ⟨head, body, hcut, hlength⟩
  rcases cut_of_headComplete hraw hcomplete hcut (by omega) with ⟨more, hmore⟩
  rcases cut_of_headComplete hraw' hcomplete' hcut (by omega) with ⟨more', hmore'⟩
  rw [parseHttpRequest_of_cut hmore, parseHttpRequest_of_cut hmore']

theorem headComplete_of_length (h : 16384 ≤ raw.length) : headComplete raw = true := by
  simp [headComplete, h]

theorem parse_of_steady (h : SteadyAtLimit sent) (hraw : raw <+: sent)
    (hcomplete : headComplete raw = true) (hsize : raw.length < 16384 + 4096)
    : parseHttpRequest raw = parseHttpRequest (sent.take 16384) := by
  cases hshort : headComplete (sent.take 16383) with
  | true =>
    apply parse_eq_of_head hshort hraw (List.take_prefix _ _) hcomplete
    rw [show sent.take 16383 = (sent.take 16384).take 16383 by
      rw [List.take_take, Nat.min_eq_left (by omega)]] at hshort
    rw [← List.take_append_drop 16383 (sent.take 16384)]
    exact headComplete_append _ hshort
  | false =>
    have hlimit := limit_le_of_headComplete hraw hcomplete hshort
    rw [List.prefix_iff_eq_take.mp hraw]
    exact parse_take_of_steady h hlimit hsize hraw.length_le

theorem independent_of_steady (h : SteadyAtLimit sent) : SegmentationIndependent sent := by
  intro rounds rounds' rest hrounds hrounds'
  unfold readHttpRequest
  cases hcomplete : headComplete sent with
  | true =>
    rcases hrounds.exists_raw hcomplete rest with ⟨raw, hreceive, hraw, hend, hsize⟩
    rcases hrounds'.exists_raw hcomplete rest with ⟨raw', hreceive', hraw', hend', hsize'⟩
    rw [hreceive, hreceive', Option.map_some, Option.map_some]
    dsimp only
    rw [parse_of_steady h hraw hend hsize, parse_of_steady h hraw' hend' hsize']
  | false =>
    have hsame : ∀ rounds, Segmentation sent rounds →
        receiveHead [] (rounds ++ rest) = receiveHead sent rest := by
      intro rounds hrounds
      have hincomplete : headComplete ([] ++ delivered rounds) = false := by
        rw [List.nil_append, hrounds.delivered_eq]
        exact hcomplete
      rw [receiveHead_append_incomplete hrounds.input hincomplete, List.nil_append,
        hrounds.delivered_eq]
    rw [hsame rounds hrounds, hsame rounds' hrounds']

def singles (text : Bytes) : List ReadRound := text.map fun c => .received [c]

theorem delivered_singles (text : Bytes) : delivered (singles text) = text := by
  induction text with
  | nil => rfl
  | cons c text ih => rw [singles, List.map_cons, delivered_cons, ← singles, ih]; rfl

theorem delivered_append (rounds rounds' : List ReadRound)
    : delivered (rounds ++ rounds') = delivered rounds ++ delivered rounds' := by
  unfold delivered
  rw [List.flatMap_append]

def stopAt (sent : Bytes) (k : Nat) : List ReadRound :=
  singles (sent.take 16383) ++ .received ((sent.take k).drop 16383) :: singles (sent.drop k)

theorem take_append_piece {k : Nat} (hlimit : 16384 ≤ k)
    : sent.take 16383 ++ (sent.take k).drop 16383 = sent.take k := by
  have htake : sent.take 16383 = (sent.take k).take 16383 := by
    rw [List.take_take, Nat.min_eq_left (by omega)]
  rw [htake, List.take_append_drop]

theorem segmentation_stopAt {k : Nat} (hlimit : 16384 ≤ k) (hsize : k < 16384 + 4096)
    (hk : k ≤ sent.length) : Segmentation sent (stopAt sent k) := by
  have hsingle : ∀ text : Bytes, ∀ round ∈ singles text,
      ∃ chunk, round = .received chunk ∧ 1 ≤ chunk.length ∧ chunk.length ≤ 4096 := by
    intro text round hround
    rcases List.mem_map.mp hround with ⟨c, -, rfl⟩
    exact ⟨[c], rfl, by simp, by simp⟩
  constructor
  . intro round hround
    right
    rcases List.mem_append.mp hround with hround | hround
    . exact hsingle _ round hround
    . rcases List.mem_cons.mp hround with rfl | hround
      . refine ⟨_, rfl, ?_, ?_⟩
        all_goals
          rw [List.length_drop, List.length_take]
          omega
      . exact hsingle _ round hround
  . rw [stopAt, delivered_append, delivered_cons, delivered_singles, delivered_singles]
    dsimp only
    rw [← List.append_assoc, take_append_piece hlimit, List.take_append_drop]

theorem receiveHead_complete (h : headComplete raw = true) (rounds : List ReadRound)
    : receiveHead raw rounds = some (.ok raw) := by
  cases rounds with
  | nil => simp [receiveHead, h]
  | cons round rounds => simp [receiveHead, h]

theorem readHttpRequest_stopAt {k : Nat} (hshort : headComplete (sent.take 16383) = false)
    (hlimit : 16384 ≤ k) (hk : k ≤ sent.length)
    : readHttpRequest (stopAt sent k) = some ((parseHttpRequest (sent.take k)).mapError .bridge) := by
  have hinput : ∀ round ∈ singles (sent.take 16383),
      round = .idle ∨ ∃ chunk, round = .received chunk := by
    intro round hround
    rcases List.mem_map.mp hround with ⟨c, -, rfl⟩
    exact .inr ⟨[c], rfl⟩
  have hincomplete : headComplete ([] ++ delivered (singles (sent.take 16383))) = false := by
    rw [List.nil_append, delivered_singles]
    exact hshort
  have hcomplete : headComplete (sent.take k) = true := by
    apply headComplete_of_length
    rw [List.length_take]
    omega
  have hreceive : receiveHead [] (stopAt sent k) = some (.ok (sent.take k)) := by
    rw [stopAt, receiveHead_append_incomplete hinput hincomplete, List.nil_append,
      delivered_singles]
    unfold receiveHead
    rw [if_neg (by simp [hshort])]
    dsimp only
    rw [take_append_piece hlimit, receiveHead_complete hcomplete]
  unfold readHttpRequest
  rw [hreceive]
  rfl

theorem mapError_bridge_inj {r r' : Except BridgeError HttpRequest}
    (h : r.mapError Exn.bridge = r'.mapError Exn.bridge) : r = r' := by
  cases r with
  | error e =>
    cases r' with
    | error e' => cases h; rfl
    | ok a => cases h
  | ok a =>
    cases r' with
    | error e => cases h
    | ok a' => cases h; rfl

theorem steady_of_independent (h : SegmentationIndependent sent) : SteadyAtLimit sent := by
  intro k hk hlimit hsize
  rw [← parseHttpRequest_concat_iff, List.take_append_getElem]
  cases hshort : headComplete (sent.take 16383) with
  | true =>
    apply parse_eq_of_head hshort (List.take_prefix _ _) (List.take_prefix _ _)
    all_goals
      apply headComplete_of_length
      rw [List.length_take]
      omega
  | false =>
    have hsame := h (stopAt sent (k + 1)) (stopAt sent k) []
      (segmentation_stopAt (by omega) hsize (by omega))
      (segmentation_stopAt hlimit (by omega) (by omega))
    rw [List.append_nil, List.append_nil, readHttpRequest_stopAt hshort (by omega) (by omega),
      readHttpRequest_stopAt hshort hlimit (by omega)] at hsame
    exact mapError_bridge_inj (Option.some.inj hsame)

/--
`read_http_request` computes one result from every segmentation of a stream exactly when it takes no
notice of those bytes behind the limit that a last piece can bring.
-/
theorem segmentationIndependent_iff (sent : Bytes)
    : SegmentationIndependent sent
        ↔
      ∀ k, ∀ (h : k < sent.length), 16384 ≤ k → k + 1 < 16384 + 4096
        → Quiet (sent.take k) sent[k] :=
  ⟨steady_of_independent, independent_of_steady⟩

end Segments

section Examples

def longField : Bytes := Bytes.lit "GET / HTTP/1.1\r\nA:" ++ List.replicate 20000 120

theorem not_quiet_longField (m : Nat)
    : ¬Quiet (Bytes.lit "GET / HTTP/1.1\r\nA:" ++ List.replicate m 120) 120 := by
  have hcut : Search.cut crlf (Bytes.lit "GET / HTTP/1.1\r\nA:")
      = some (Bytes.lit "GET / HTTP/1.1", Bytes.lit "A:") := by decide
  have hline : requestLine (Bytes.lit "GET / HTTP/1.1") ≠ none := by decide
  have hlf : (10 : UInt8) ∉ Bytes.lit "A:" ++ List.replicate m 120 := by
    rw [List.mem_append, not_or]
    exact ⟨by decide, by simp⟩
  have hcolon : (58 : UInt8) ∈ Bytes.lit "A:" ++ List.replicate m 120 :=
    List.mem_append_left _ (by decide)
  unfold Quiet QuietInHeaders
  rw [Search.cut_append _ hcut]
  dsimp only
  rw [Delimited.scan_of_not_mem hlf]
  simp [hline, hcolon, isBlank]

/--
The value of the field is as long as the last piece makes it.
-/
theorem longField_dependent : ¬SegmentationIndependent longField := by
  intro hindependent
  have hlength : longField.length = 20018 := by
    rw [longField, List.length_append, List.length_replicate]
    rfl
  have htake : longField.take 16384
      = Bytes.lit "GET / HTTP/1.1\r\nA:" ++ List.replicate 16366 120 := by
    rw [longField, List.take_append, List.take_replicate]
    rfl
  have hbyte : ∀ h : 16384 < longField.length, longField[16384] = 120 := by
    intro h
    simp only [longField]
    rw [List.getElem_append_right (by decide), List.getElem_replicate]
  have hquiet := steady_of_independent hindependent 16384 (by omega) (by omega) (by omega)
  rw [hbyte, htake] at hquiet
  exact not_quiet_longField 16366 hquiet

end Examples
end HikBridge
