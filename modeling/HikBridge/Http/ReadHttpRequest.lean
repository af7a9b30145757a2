import HikBridge.Http.HandleConnection
import HikBridge.Lib.Delimited
import HikBridge.Lib.Search
import HikBridge.Numbers

/-!
This module contains `read_http_request`: the loop that receives the head of a request, its request
line, its header lines and the decoding of its query. Bytes beyond ASCII are letters and digits of no
kind, as in the "C" locale.
-/

namespace HikBridge

-- `std::map<std::string, std::string>` with `operator[]` and its lookups.
abbrev Query := Bytes → Option Bytes

def Query.empty : Query := fun _ => none

def Query.assign (query : Query) (entry : Bytes × Bytes) : Query :=
  Function.update query entry.1 (some entry.2)

def lastValue (key : Bytes) (entries : List (Bytes × Bytes)) : Option Bytes :=
  (entries.filter fun entry => entry.1 == key).getLast?.map Prod.snd

def urlDecode : Bytes → Bytes
  | [] => []
  | 43 :: rest => 32 :: urlDecode rest
  | 37 :: high :: low :: rest =>
    match Numeral.digitVal high, Numeral.digitVal low with
    | some h, some l => UInt8.ofNat (16 * h + l) :: urlDecode rest
    | _, _ => 37 :: urlDecode (high :: low :: rest)
  | c :: rest => c :: urlDecode rest

def splitAtFirst (sep : UInt8) (text : Bytes) : Bytes × Bytes :=
  (text.takeWhile (· != sep), (text.dropWhile (· != sep)).drop 1)

def parameter (part : Bytes) : Bytes × Bytes :=
  let (name, value) := splitAtFirst 61 part
  (urlDecode name, urlDecode value)

def parseQuery (text : Bytes) : Query :=
  (text.splitOn 38).foldl (fun query part => query.assign (parameter part)) Query.empty

-- `std::tolower`
def toLower (c : UInt8) : UInt8 := if 65 ≤ c ∧ c ≤ 90 then c + 32 else c

def trim (value : Bytes) : Bytes :=
  let blank (c : UInt8) : Bool := c == 32 || c == 9 || c == 13 || c == 10
  ((value.dropWhile blank).reverse.dropWhile blank).reverse

-- The four blanks of `trim`.
def isBlank (c : UInt8) : Bool := c == 32 || c == 9 || c == 13 || c == 10

theorem trim_eq (value : Bytes)
    : trim value = ((value.dropWhile isBlank).reverse.dropWhile isBlank).reverse :=
  rfl

theorem trim_append {text : Bytes} (hne : text ≠ []) (h : ∀ c ∈ text, isBlank c = false) (rest : Bytes)
    : trim (text ++ rest) = text ++ (rest.reverse.dropWhile isBlank).reverse := by
  have hleft : (text ++ rest).dropWhile isBlank = text ++ rest := by
    rcases List.exists_cons_of_ne_nil hne with ⟨first, tail, rfl⟩
    rw [List.cons_append, List.dropWhile_cons_of_neg]
    simp [h first]
  have hright : text.reverse.dropWhile isBlank = text.reverse := by
    rcases List.exists_cons_of_ne_nil (List.reverse_ne_nil_iff.mpr hne) with ⟨last, init, hlast⟩
    have hmem : last ∈ text := by
      rw [← List.mem_reverse, hlast]
      exact List.mem_cons_self
    rw [hlast, List.dropWhile_cons_of_neg]
    simp [h last hmem]
  rw [trim_eq, hleft, List.reverse_append, List.dropWhile_append]
  split
  . next hnil =>
    rw [List.isEmpty_iff] at hnil
    rw [hright, hnil]
    simp
  . simp

def crlf : Bytes := [13, 10]

def headerField (header : Bytes) : Option (Bytes × Bytes) :=
  if 58 ∈ header then
    let (name, value) := splitAtFirst 58 header
    some (name.map toLower, trim value)
  else
    none

-- The `while` loop over the header lines.
def readHeaders (headers : Query) : List Bytes → Query
  | [] => headers
  | header :: rest =>
    if header = [13] then
      headers
    else
      match headerField header with
      | none => readHeaders headers rest
      | some field => readHeaders (headers.assign field) rest

def badRequest (message : String) : BridgeError := ⟨400, "BAD_REQUEST", message⟩

def HttpRequest.ofTarget (method target : Bytes) (headers : Query) : HttpRequest where
  method
  path := (splitAtFirst 63 target).1
  query := if 63 ∈ target then parseQuery (splitAtFirst 63 target).2 else Query.empty
  headers

-- What `read_http_request` makes of the bytes that it received.
def parseHttpRequest (raw : Bytes) : Except BridgeError HttpRequest :=
  match Search.cut crlf raw with
  | none => .error (badRequest "HTTP 请求无效")
  | some (line, headers) =>
    match Search.word? Bytes.isSpace line with
    | none => .error (badRequest "HTTP 请求行无效")
    | some (method, line) =>
      match Search.word? Bytes.isSpace line with
      | none => .error (badRequest "HTTP 请求行无效")
      | some (target, line) =>
        match Search.word? Bytes.isSpace line with
        | none => .error (badRequest "HTTP 请求行无效")
        | some _ =>
          .ok (.ofTarget method target (readHeaders Query.empty (Delimited.lines 10 headers)))

inductive ReadRound where
  -- `g_running` is false
  | stopped
  | deadline
  -- no input yet, a call that would block or that was interrupted
  | idle
  | received (chunk : Bytes)
  | closed
  deriving DecidableEq, Repr

/--
The condition on which the receiving loop ends.
-/
def headComplete (raw : Bytes) : Bool :=
  (Search.cut (crlf ++ crlf) raw).isSome || decide (16384 ≤ raw.length)

def requestTimeout : BridgeError := ⟨400, "REQUEST_TIMEOUT", "HTTP 请求头读取超时"⟩

/--
The receiving loop. It still runs where the rounds end with `none`.
-/
def receiveHead (raw : Bytes) : List ReadRound → Option (Except Exn Bytes)
  | [] => if headComplete raw then some (.ok raw) else none
  | round :: rounds =>
    if headComplete raw then
      some (.ok raw)
    else
      match round with
      | .stopped => some (.error .clientDisconnected)
      | .deadline => some (.error (.bridge requestTimeout))
      | .idle => receiveHead raw rounds
      | .received chunk => receiveHead (raw ++ chunk) rounds
      | .closed => some (.error .clientDisconnected)

def readHttpRequest (rounds : List ReadRound) : Option (Except Exn HttpRequest) :=
  (receiveHead [] rounds).map fun
    | .ok raw => (parseHttpRequest raw).mapError .bridge
    | .error exn => .error exn

def delivered (rounds : List ReadRound) : Bytes :=
  rounds.flatMap fun
    | .received chunk => chunk
    | _ => []

section Tables

variable {key : Bytes} {query : Query} {entries : List (Bytes × Bytes)}

theorem lastValue_cons (entry : Bytes × Bytes)
    : lastValue key (entry :: entries)
        =
      (lastValue key entries).or (if entry.1 = key then some entry.2 else none) := by
  unfold lastValue
  by_cases h : entry.1 = key
  . rw [List.filter_cons_of_pos (by simpa using h), List.getLast?_cons, if_pos h]
    cases (entries.filter fun entry => entry.1 == key).getLast? <;> rfl
  . rw [List.filter_cons_of_neg (by simpa using h), if_neg h, Option.or_none]

theorem foldl_assign (entries : List (Bytes × Bytes)) (query : Query) (key : Bytes)
    : entries.foldl Query.assign query key = (lastValue key entries).or (query key) := by
  induction entries generalizing query with
  | nil => rfl
  | cons entry entries ih =>
    rw [List.foldl_cons, ih, lastValue_cons, Option.or_assoc]
    congr 1
    unfold Query.assign
    by_cases h : entry.1 = key
    . rw [if_pos h, ← h, Function.update_self]
      rfl
    . rw [if_neg h, Function.update_of_ne (Ne.symm h)]
      rfl

theorem parseQuery_apply (text key : Bytes)
    : parseQuery text key = lastValue key ((text.splitOn 38).map parameter) := by
  unfold parseQuery
  rw [← List.foldl_map (g := Query.assign), foldl_assign, Query.empty, Option.or_none]

theorem readHeaders_eq (headers : Query) (lines : List Bytes)
    : readHeaders headers lines
        =
      ((lines.takeWhile (· != [13])).filterMap headerField).foldl Query.assign headers := by
  induction lines generalizing headers with
  | nil => rfl
  | cons header lines ih =>
    unfold readHeaders
    by_cases hend : header = [13]
    . rw [if_pos hend, List.takeWhile_cons_of_neg (by simpa using hend)]
      rfl
    . rw [if_neg hend, List.takeWhile_cons_of_pos (by simpa using hend), List.filterMap_cons]
      cases headerField header with
      | none => exact ih headers
      | some field => exact ih (headers.assign field)

theorem readHeaders_apply (lines : List Bytes) (key : Bytes)
    : readHeaders Query.empty lines key
        =
      lastValue key ((lines.takeWhile (· != [13])).filterMap headerField) := by
  rw [readHeaders_eq, foldl_assign, Query.empty, Option.or_none]

end Tables

section Head

variable {text rest : Bytes}

def EndsHead (text : Bytes) : Prop :=
  ∃ line headers, Search.cut crlf text = some (line, headers ++ crlf)
    ∧ (headers = [] ∨ ∃ lines, headers = lines ++ [10])

theorem lines_of_endsHead {headers : Bytes} (h : headers = [] ∨ ∃ lines, headers = lines ++ [10])
    (rest : Bytes)
    : Delimited.lines 10 (headers ++ crlf ++ rest)
        =
      Delimited.lines 10 headers ++ [13] :: Delimited.lines 10 rest := by
  have hempty : Delimited.lines 10 (crlf ++ rest) = [13] :: Delimited.lines 10 rest := by
    simp [crlf, Delimited.lines]
  rw [List.append_assoc]
  rcases h with rfl | ⟨lines, rfl⟩
  . rw [List.nil_append, hempty]
    rfl
  . rw [List.append_assoc, List.singleton_append, Delimited.lines_append_sep, hempty]

theorem readHeaders_append (query : Query) (lines more : List Bytes)
    : readHeaders query (lines ++ [13] :: more) = readHeaders query (lines ++ [[13]]) := by
  induction lines generalizing query with
  | nil => simp [readHeaders]
  | cons header lines ih =>
    rw [List.cons_append, List.cons_append]
    unfold readHeaders
    simp only [ih]

theorem parseHttpRequest_append (h : EndsHead text) (rest : Bytes)
    : parseHttpRequest (text ++ rest) = parseHttpRequest text := by
  obtain ⟨line, headers, hcut, hheaders⟩ := h
  have hlines : readHeaders Query.empty (Delimited.lines 10 (headers ++ crlf ++ rest))
      = readHeaders Query.empty (Delimited.lines 10 (headers ++ crlf)) := by
    have hnil := lines_of_endsHead hheaders []
    rw [List.append_nil] at hnil
    rw [lines_of_endsHead hheaders, readHeaders_append, hnil]
    rfl
  unfold parseHttpRequest
  rw [Search.cut_append rest hcut, hcut]
  simp only [hlines]

theorem endsHead_crlf (head : Bytes) : EndsHead (head ++ (crlf ++ crlf)) := by
  obtain ⟨line, after, hcut, -⟩ := Search.exists_cut crlf head []
  rw [List.append_nil] at hcut
  have heq := Search.cut_eq hcut
  have hmore := Search.cut_append crlf hcut
  rw [List.append_assoc] at hmore
  refine ⟨line, after, hmore, ?_⟩
  rcases List.eq_nil_or_concat after with hafter | ⟨lines, last, hafter⟩
  . exact .inl hafter
  . right
    rw [List.concat_eq_append] at hafter
    have hsplit : head ++ [13] ++ [10] = line ++ (crlf ++ lines) ++ [last] := by
      rw [hafter] at heq
      simpa [crlf] using heq
    obtain ⟨-, hlast⟩ := List.append_inj' hsplit rfl
    exact ⟨lines, by rw [hafter, hlast]⟩

theorem parseHttpRequest_of_cut {head body : Bytes}
    (h : Search.cut (crlf ++ crlf) text = some (head, body))
    : parseHttpRequest text = parseHttpRequest (head ++ (crlf ++ crlf)) := by
  rw [Search.cut_eq h, ← List.append_assoc]
  exact parseHttpRequest_append (endsHead_crlf head) body

end Head

section Receive

variable {raw raw' sent head body : Bytes} {rounds : List ReadRound}

theorem delivered_cons (round : ReadRound) (rounds : List ReadRound)
    : delivered (round :: rounds)
        =
      (match round with
        | .received chunk => chunk
        | _ => []) ++ delivered rounds := by
  unfold delivered
  rw [List.flatMap_cons]

theorem receiveHead_ok (h : receiveHead raw rounds = some (.ok raw'))
    : raw' <+: raw ++ delivered rounds ∧ headComplete raw' = true := by
  induction rounds generalizing raw with
  | nil =>
    unfold receiveHead at h
    split at h
    . next hcomplete =>
      cases h
      exact ⟨List.prefix_append _ _, hcomplete⟩
    . contradiction
  | cons round rounds ih =>
    unfold receiveHead at h
    rw [delivered_cons]
    split at h
    . next hcomplete =>
      cases h
      exact ⟨List.prefix_append _ _, hcomplete⟩
    . cases round with
      | stopped => cases h
      | deadline => cases h
      | closed => cases h
      | idle => exact ih h
      | received chunk =>
        rw [← List.append_assoc]
        exact ih h

theorem headComplete_append (more : Bytes) (h : headComplete raw = true)
    : headComplete (raw ++ more) = true := by
  unfold headComplete at h ⊢
  rw [Bool.or_eq_true] at h ⊢
  rcases h with h | h
  . left
    obtain ⟨⟨before, after⟩, hcut⟩ := Option.isSome_iff_exists.mp h
    rw [Search.cut_append more hcut]
    rfl
  . right
    rw [decide_eq_true_eq] at h ⊢
    rw [List.length_append]
    omega

theorem receiveHead_isSome
    (hinput : ∀ round ∈ rounds, round ≠ .stopped ∧ round ≠ .deadline ∧ round ≠ .closed)
    (hcomplete : headComplete (raw ++ delivered rounds) = true)
    : ∃ raw', receiveHead raw rounds = some (.ok raw') := by
  induction rounds generalizing raw with
  | nil =>
    unfold delivered at hcomplete
    rw [List.flatMap_nil, List.append_nil] at hcomplete
    unfold receiveHead
    rw [if_pos hcomplete]
    exact ⟨raw, rfl⟩
  | cons round rounds ih =>
    obtain ⟨hround, hrounds⟩ := List.forall_mem_cons.mp hinput
    unfold receiveHead
    split
    . exact ⟨raw, rfl⟩
    . cases round with
      | stopped => exact absurd rfl hround.1
      | deadline => exact absurd rfl hround.2.1
      | closed => exact absurd rfl hround.2.2
      | idle => exact ih hrounds (by rwa [delivered_cons] at hcomplete)
      | received chunk =>
        apply ih hrounds
        rwa [delivered_cons, ← List.append_assoc] at hcomplete

theorem cut_of_headComplete (hraw : raw <+: sent) (hcomplete : headComplete raw = true)
    (hhead : Search.cut (crlf ++ crlf) sent = some (head, body))
    (hlength : head.length + 4 ≤ 16384)
    : ∃ rest, Search.cut (crlf ++ crlf) raw = some (head, rest) := by
  obtain ⟨more, rfl⟩ := hraw
  unfold headComplete at hcomplete
  rw [Bool.or_eq_true, decide_eq_true_eq] at hcomplete
  rcases hcomplete with hcomplete | hcomplete
  . obtain ⟨⟨before, after⟩, hcut⟩ := Option.isSome_iff_exists.mp hcomplete
    rw [Search.cut_append more hcut] at hhead
    cases hhead
    exact ⟨after, hcut⟩
  . have hneedle : (crlf ++ crlf).length = 4 := rfl
    obtain ⟨rest, hcut, -⟩ := Search.cut_of_append hhead (by omega)
    exact ⟨rest, hcut⟩

theorem readHttpRequest_eq (hsent : delivered rounds <+: sent)
    (hhead : Search.cut (crlf ++ crlf) sent = some (head, body))
    (hlength : head.length + 4 ≤ 16384) (hreceive : receiveHead [] rounds = some (.ok raw))
    : readHttpRequest rounds = some ((parseHttpRequest sent).mapError .bridge) := by
  obtain ⟨hraw, hcomplete⟩ := receiveHead_ok hreceive
  obtain ⟨rest, hcut⟩ := cut_of_headComplete (hraw.trans hsent) hcomplete hhead hlength
  unfold readHttpRequest
  rw [hreceive, Option.map_some]
  dsimp only
  rw [parseHttpRequest_of_cut hcut, ← parseHttpRequest_of_cut hhead]

end Receive

end HikBridge
