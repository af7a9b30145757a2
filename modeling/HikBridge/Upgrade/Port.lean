import HikBridge.Config.Lookup

/-!
This module contains the reading of the port by `hik-bridge-upgrade`, with its regular expressions, and
when it is the port that `load_config` takes from the same text.
-/

namespace HikBridge.Upgrade

def blanksThen (c : UInt8) (text : Bytes) : Option Bytes :=
  match text.dropWhile Bytes.isSpace with
  | [] => none
  | d :: rest => if d = c then some rest else none

def keyThen (key text : Bytes) : Option Bytes :=
  if nameKey key <+: text then blanksThen 58 (text.drop (nameKey key).length) else none

def upTo (c : UInt8) (text : Bytes) : Option Bytes :=
  if c ∈ text then some (text.takeWhile (· != c)) else none

-- `"server"\s*:\s*\{([^}]*)\}`
def serverAt (text : Bytes) : Option Bytes :=
  ((keyThen (Bytes.lit "server") text).bind (blanksThen 123)).bind (upTo 125)

-- `"key"\s*:\s*"([^"]*)"`
def stringAt (key text : Bytes) : Option Bytes :=
  ((keyThen key text).bind (blanksThen 34)).bind (upTo 34)

-- `"port"\s*:\s*([0-9]+)`
def numberAt (text : Bytes) : Option Bytes :=
  (keyThen (Bytes.lit "port") text).bind fun rest =>
    match (rest.dropWhile Bytes.isSpace).takeWhile Numeral.isDecimal with
    | [] => none
    | digits => some digits

def jsonString (json key : Bytes) : Except String Bytes :=
  match Search.firstMatch (stringAt key) json with
  | some value => .ok value
  | none => .error "Missing JSON string field"

def port (text : Bytes) : Except String Int :=
  match Search.firstMatch serverAt text with
  | none => .error "Missing server configuration"
  | some fields =>
    match jsonString fields (Bytes.lit "bind") with
    | .error message => .error message
    | .ok bind =>
      if bind ≠ Bytes.lit "127.0.0.1" then
        .error "Only the loopback bridge is supported"
      else
        match Search.firstMatch numberAt fields with
        | none => .error "Missing server port"
        | some digits =>
          match Bytes.stoi digits with
          | none => .error "stoi argument out of range"
          | some value => if 0 < value ∧ value < 65536 then .ok value else .error "Invalid port"

section Matching

variable {c digit : UInt8} {key text gap gap' rest more : Bytes}

theorem blanksThen_append (hgap : ∀ c ∈ gap, Bytes.isSpace c = true) (hc : Bytes.isSpace c = false)
    : blanksThen c (gap ++ c :: rest) = some rest := by
  rw [blanksThen, List.dropWhile_append_of_pos hgap, List.dropWhile_cons_of_neg (by simp [hc])]
  exact if_pos rfl

theorem keyThen_append (hgap : ∀ c ∈ gap, Bytes.isSpace c = true)
    : keyThen key (nameKey key ++ (gap ++ 58 :: rest)) = some rest := by
  rw [keyThen, if_pos (List.prefix_append _ _), List.drop_left]
  exact blanksThen_append hgap rfl

theorem prefix_of_keyThen (h : keyThen key text = some rest) : nameKey key <+: text := by
  unfold keyThen at h
  split at h
  . next hstart => exact hstart
  . contradiction

theorem prefix_of_serverAt (h : serverAt text = some rest) : nameKey (Bytes.lit "server") <+: text := by
  rw [serverAt, Option.bind_assoc, Option.bind_eq_some_iff] at h
  rcases h with ⟨_, h, -⟩
  exact prefix_of_keyThen h

theorem prefix_of_numberAt (h : numberAt text = some rest) : nameKey (Bytes.lit "port") <+: text := by
  rw [numberAt, Option.bind_eq_some_iff] at h
  rcases h with ⟨_, h, -⟩
  exact prefix_of_keyThen h

theorem serverAt_append (hgap : ∀ c ∈ gap, Bytes.isSpace c = true)
    (hgap' : ∀ c ∈ gap', Bytes.isSpace c = true) (hrest : 125 ∈ rest)
    : serverAt (nameKey (Bytes.lit "server") ++ (gap ++ 58 :: (gap' ++ 123 :: rest)))
        = some (rest.takeWhile (· != 125)) := by
  rw [serverAt, keyThen_append hgap, Option.bind_some, blanksThen_append hgap' rfl, Option.bind_some]
  exact if_pos hrest

theorem numberAt_append (hgap : ∀ c ∈ gap, Bytes.isSpace c = true)
    (hgap' : ∀ c ∈ gap', Bytes.isSpace c = true) (hdigit : Numeral.isDecimal digit = true)
    : numberAt (nameKey (Bytes.lit "port") ++ (gap ++ 58 :: (gap' ++ digit :: more)))
        = some ((digit :: more).takeWhile Numeral.isDecimal) := by
  have hdrop : (gap' ++ digit :: more).dropWhile Bytes.isSpace = digit :: more := by
    rw [List.dropWhile_append_of_pos hgap', List.dropWhile_cons_of_neg]
    simp [Bytes.isSpace_of_isDecimal hdigit]
  rw [numberAt, keyThen_append hgap, Option.bind_some, hdrop, List.takeWhile_cons_of_pos hdigit]

end Matching

section Sections

variable {prev : UInt8} {depth : Nat} {quoted : Bool} {text body : Bytes}

theorem sectionBody_upTo (h : sectionBody prev depth quoted text = some body)
    : 125 ∈ text ∧ ∃ tail, body = text.takeWhile (· != 125) ++ tail ∧ ∀ c ∈ tail.head?, c = 125 := by
  induction text generalizing prev depth quoted body with
  | nil => contradiction
  | cons c text ih =>
    have hstep : body = [] ∧ c = 125 ∨ ∃ prev depth quoted rest,
        sectionBody prev depth quoted text = some rest ∧ body = c :: rest := by
      unfold sectionBody at h
      dsimp only at h
      have hmap : ∀ prev depth quoted, (sectionBody prev depth quoted text).map (c :: ·) = some body
          → ∃ prev depth quoted rest,
            sectionBody prev depth quoted text = some rest ∧ body = c :: rest := by
        intro prev depth quoted hbody
        rcases Option.map_eq_some_iff.mp hbody with ⟨rest, hrest, rfl⟩
        exact ⟨prev, depth, quoted, rest, hrest, rfl⟩
      generalize (if c = 34 ∧ prev ≠ 92 then !quoted else quoted) = quoted' at h
      split at h
      . exact .inr (hmap _ _ _ h)
      . split at h
        . exact .inr (hmap _ _ _ h)
        . split at h
          . next hclose =>
            split at h
            . cases h
              exact .inl ⟨rfl, hclose⟩
            . exact .inr (hmap _ _ _ h)
          . exact .inr (hmap _ _ _ h)
    rcases hstep with ⟨rfl, rfl⟩ | ⟨prev, depth, quoted, rest, hrest, rfl⟩
    . exact ⟨List.mem_cons_self, [], by simp, by simp⟩
    . rcases ih hrest with ⟨hmem, tail, rfl, htail⟩
      refine ⟨List.mem_cons_of_mem c hmem, ?_⟩
      by_cases hc : c = 125
      . subst hc
        exact ⟨125 :: (text.takeWhile (· != 125) ++ tail), by simp, by simp⟩
      . exact ⟨tail, by simp [hc], htail⟩

end Sections

section Numbers

variable {digits rest : Bytes}

theorem trim_digits (hne : digits ≠ []) (hdigits : ∀ c ∈ digits, Numeral.isDecimal c = true)
    (hrest : ∀ c ∈ rest.head?, Numeral.isDecimal c = false)
    : ∃ more, trim (digits ++ rest) = digits ++ more ∧ ∀ c ∈ more.head?, Numeral.isDecimal c = false := by
  have hblank : ∀ c ∈ digits, isBlank c = false := by
    intro c hc
    apply isBlank_of_isBareByte
    simp [isBareByte, hdigits c hc]
  have hkept : (rest.reverse.dropWhile isBlank).reverse <+: rest := by
    have hsuffix := List.dropWhile_suffix isBlank (l := rest.reverse)
    rw [← List.reverse_prefix, List.reverse_reverse] at hsuffix
    exact hsuffix
  refine ⟨_, trim_append hne hblank rest, ?_⟩
  intro c hc
  rcases hkept with ⟨tail, htail⟩
  apply hrest
  rw [← htail, Option.mem_def, List.head?_append, Option.mem_def.mp hc]
  rfl

theorem stoi_append (hne : digits ≠ []) (hdigits : ∀ c ∈ digits, Numeral.isDecimal c = true)
    (hrest : ∀ c ∈ rest.head?, Numeral.isDecimal c = false)
    : Bytes.stoi (digits ++ rest) = Bytes.stoi digits := by
  rw [Bytes.stoi, Bytes.stoi, Bytes.stoll_append hne hdigits hrest]

end Numbers

section Load

variable {host : ConfigHost} {json : Bytes} {config : Config}

theorem port_of_load (h : Config.load host json = .ok config)
    : jsonInt (jsonSection json (Bytes.lit "server")) "port" 28080 = .ok config.port :=
  (Config.of_load h).1

end Load

section Agreement

variable {text : Bytes} {config : Config} {value : Int}

/--
Both readers come to the number at the same place: the first `"server"` of the text is followed by a
colon and an opening brace, the section is closed, and before the first closing brace the first
`"port"` is followed by a colon and a digit.
-/
def SamePlace (text : Bytes) : Prop :=
  ∃ before gap gap' rest, Search.cut (nameKey (Bytes.lit "server")) text
      = some (before, gap ++ 58 :: (gap' ++ 123 :: rest))
    ∧ (∀ c ∈ gap, Bytes.isSpace c = true) ∧ (∀ c ∈ gap', Bytes.isSpace c = true)
    ∧ (sectionBody 123 1 false rest).isSome
    ∧ ∃ before gap gap' digit more,
        Search.cut (nameKey (Bytes.lit "port")) (rest.takeWhile (· != 125))
          = some (before, gap ++ 58 :: (gap' ++ digit :: more))
        ∧ (∀ c ∈ gap, Bytes.isSpace c = true) ∧ (∀ c ∈ gap', Bytes.isSpace c = true)
        ∧ Numeral.isDecimal digit = true

theorem isSpace_ne {c d : UInt8} (hd : Bytes.isSpace d = false) (h : Bytes.isSpace c = true)
    : (c != d) = true := by
  rw [bne_iff_ne]
  rintro rfl
  rw [h] at hd
  contradiction

theorem not_endsScalar {c : UInt8} (h : Numeral.isDecimal c = true) : (!endsScalar c) = true := by
  by_contra hcontra
  have hends : endsScalar c = true := by simpa using hcontra
  have hcases : c = 44 ∨ c = 125 ∨ c = 13 ∨ c = 10 := by
    simpa [endsScalar, or_assoc] using hends
  rcases hcases with rfl | rfl | rfl | rfl
  all_goals contradiction

theorem scalarAt_number {digit : UInt8} {more : Bytes} (hdigit : Numeral.isDecimal digit = true)
    : ∃ text', scalarAt (digit :: more) = some text'
        ∧ Bytes.stoi text' = Bytes.stoi ((digit :: more).takeWhile Numeral.isDecimal) := by
  have hquote : digit ≠ 34 := by
    rintro rfl
    contradiction
  have hat : scalarAt (digit :: more)
      = some (trim ((digit :: more).takeWhile fun c => !endsScalar c)) := by
    unfold scalarAt
    split
    . contradiction
    . next heq => exact absurd (List.cons.inj heq).1 hquote
    . rfl
  have hdigits : ∀ c ∈ (digit :: more).takeWhile Numeral.isDecimal, Numeral.isDecimal c = true :=
    fun c hc => List.mem_takeWhile_imp hc
  have hne : (digit :: more).takeWhile Numeral.isDecimal ≠ [] := by
    rw [List.takeWhile_cons_of_pos hdigit]
    exact List.cons_ne_nil _ _
  have hsplit : (digit :: more).takeWhile (fun c => !endsScalar c)
      = (digit :: more).takeWhile Numeral.isDecimal
        ++ ((digit :: more).dropWhile Numeral.isDecimal).takeWhile fun c => !endsScalar c := by
    rw [← List.takeWhile_append_of_pos fun c hc => not_endsScalar (hdigits c hc),
      List.takeWhile_append_dropWhile]
  have hrest : ∀ c ∈ (((digit :: more).dropWhile Numeral.isDecimal).takeWhile
      fun c => !endsScalar c).head?, Numeral.isDecimal c = false := by
    intro c hc
    have hnot := List.head?_dropWhile_not Numeral.isDecimal (digit :: more)
    rcases hdrop : (digit :: more).dropWhile Numeral.isDecimal with _ | ⟨d, tail⟩
    . rw [hdrop] at hc
      contradiction
    . rw [hdrop] at hc hnot
      have hd : Numeral.isDecimal d = false := by simpa using hnot
      rw [List.takeWhile_cons] at hc
      split at hc
      . rw [List.head?_cons, Option.mem_some] at hc
        rwa [← hc]
      . contradiction
  rcases trim_digits hne hdigits hrest with ⟨more', htrim, hmore'⟩
  refine ⟨_, hat, ?_⟩
  rw [hsplit, htrim]
  exact stoi_append hne hdigits hmore'

theorem jsonValue_number {name before gap gap' more : Bytes} {digit : UInt8}
    (hcut : Search.cut (nameKey name) text = some (before, gap ++ 58 :: (gap' ++ digit :: more)))
    (hgap : ∀ c ∈ gap, Bytes.isSpace c = true) (hgap' : ∀ c ∈ gap', Bytes.isSpace c = true)
    (hdigit : Numeral.isDecimal digit = true)
    : ∃ text', jsonValue text name = some text'
        ∧ Bytes.stoi text' = Bytes.stoi ((digit :: more).takeWhile Numeral.isDecimal) := by
  have hcolon : (gap ++ 58 :: (gap' ++ digit :: more)).dropWhile (· != 58)
      = 58 :: (gap' ++ digit :: more) := by
    rw [List.dropWhile_append_of_pos fun c hc => isSpace_ne rfl (hgap c hc),
      List.dropWhile_cons_of_neg (by decide)]
  have hspace : (gap' ++ digit :: more).dropWhile Bytes.isSpace = digit :: more := by
    rw [List.dropWhile_append_of_pos hgap', List.dropWhile_cons_of_neg]
    simp [Bytes.isSpace_of_isDecimal hdigit]
  rcases @scalarAt_number digit more hdigit with ⟨text', hat, hstoi⟩
  refine ⟨text', ?_, hstoi⟩
  rw [jsonValue, hcut]
  dsimp only
  rw [hcolon]
  dsimp only
  rw [hspace, hat]

/--
Where they do, the updater checks the port that the service listens on.
-/
theorem port_eq_load (host : ConfigHost) (hplace : SamePlace text) (hload : Config.load host text = .ok config)
    (hport : port text = .ok value) : value = config.port := by
  rcases hplace with
    ⟨before, gap, gap', rest, hserver, hgap, hgap', hbody, before', gap₁, gap₂, digit, more, hnumber,
      hgap₁, hgap₂, hdigit⟩
  rcases Option.isSome_iff_exists.mp hbody with ⟨body, hbody⟩
  rcases sectionBody_upTo hbody with ⟨hbrace, tail, rfl, htail⟩
  have hfields : Search.firstMatch serverAt text = some (rest.takeWhile (· != 125)) := by
    apply Search.firstMatch_of_cut (fun _ _ => prefix_of_serverAt) hserver
    exact serverAt_append hgap hgap' hbrace
  have hdigits : Search.firstMatch numberAt (rest.takeWhile (· != 125))
      = some ((digit :: more).takeWhile Numeral.isDecimal) := by
    apply Search.firstMatch_of_cut (fun _ _ => prefix_of_numberAt) hnumber
    exact numberAt_append hgap₁ hgap₂ hdigit
  have hvalue : Bytes.stoi ((digit :: more).takeWhile Numeral.isDecimal) = some value := by
    unfold port at hport
    rw [hfields] at hport
    dsimp only at hport
    split at hport
    . contradiction
    . split at hport
      . contradiction
      . rw [hdigits] at hport
        dsimp only at hport
        split at hport
        . contradiction
        . next n hn =>
          split at hport
          . cases hport
            exact hn
          . contradiction
  have hsection : jsonSection text (Bytes.lit "server") = rest.takeWhile (· != 125) ++ tail := by
    have hopen : (gap ++ 58 :: (gap' ++ 123 :: rest)).dropWhile (· != 123) = 123 :: rest := by
      rw [List.dropWhile_append_of_pos fun c hc => isSpace_ne rfl (hgap c hc),
        List.dropWhile_cons_of_pos (by decide),
        List.dropWhile_append_of_pos fun c hc => isSpace_ne rfl (hgap' c hc),
        List.dropWhile_cons_of_neg (by decide)]
    rw [jsonSection, hserver]
    dsimp only
    rw [hopen]
    dsimp only
    rw [hbody, Option.getD_some]
  have hsame : (digit :: (more ++ tail)).takeWhile Numeral.isDecimal
      = (digit :: more).takeWhile Numeral.isDecimal := by
    have hstop : tail.takeWhile Numeral.isDecimal = [] := by
      cases tail with
      | nil => rfl
      | cons c tail => rw [htail c rfl, List.takeWhile_cons_of_neg (by decide)]
    rw [← List.cons_append, List.takeWhile_append, hstop, List.append_nil]
    split
    . next hall => exact (List.takeWhile_prefix _).eq_of_length hall |>.symm
    . rfl
  have hcut := Search.cut_append tail hnumber
  simp only [List.append_assoc, List.cons_append] at hcut
  rcases jsonValue_number hcut hgap₁ hgap₂ hdigit with ⟨text', htext', hstoi⟩
  have hloaded := port_of_load hload
  rw [hsection, jsonInt, htext'] at hloaded
  dsimp only at hloaded
  rw [hstoi, hsame, hvalue] at hloaded
  exact Except.ok.inj hloaded

def plainHost : ConfigHost := ⟨fun _ => false, id, none, none, none⟩

-- `{"server": {"bind": "127.0.0.1", "port": 8080}}`
def loopback : Bytes :=
  Bytes.lit "\x7b\"server\": \x7b\"bind\": \"127.0.0.1\", \"port\": 8080\x7d\x7d"

theorem samePlace_loopback : SamePlace loopback :=
  ⟨_, [], [32], _, rfl, by simp, List.all_eq_true.mp rfl, rfl, _, [], [32], 56, _, rfl, by simp,
    List.all_eq_true.mp rfl, rfl⟩

theorem port_eq_load_loopback
    : ∃ config, Config.load plainHost loopback = .ok config ∧ port loopback = .ok 8080
        ∧ 8080 = config.port :=
  ⟨_, rfl, rfl, port_eq_load plainHost samePlace_loopback rfl rfl⟩

-- `{"role": "server", "proxy": {"port": 1}, "server": {"bind": "127.0.0.1", "port": 2}}`
def proxied : Bytes :=
  Bytes.lit "\x7b\"role\": \"server\", \"proxy\": \x7b\"port\": 1\x7d, \"server\": \x7b\"bind\": \"127.0.0.1\", \"port\": 2\x7d\x7d"

/--
A string that equals the name of the section leads `load_config` into another section.
-/
theorem port_ne_load_proxied
    : ¬∀ (host : ConfigHost) (text : Bytes) (config : Config) (value : Int),
        Config.load host text = .ok config → port text = .ok value → value = config.port := by
  intro h
  have hload : (Config.load plainHost proxied).toOption.map Config.port = some 1 := by decide +kernel
  have hport : port proxied = .ok 2 := rfl
  cases hconfig : Config.load plainHost proxied with
  | error error =>
    rw [hconfig] at hload
    contradiction
  | ok config =>
    have hone : config.port = 1 := by
      rw [hconfig] at hload
      exact Option.some.inj hload
    have htwo := h plainHost proxied config 2 hconfig hport
    rw [hone] at htwo
    contradiction

end Agreement

end HikBridge.Upgrade
