import Skype.Library.Keyed
import Skype.StringUtils

/-!
# `Config`

The keys are those of the defaults; a file replaces values line by line, and the address
of the server is chosen when all lines have been read. The positions of `split` and
`split_first` are of type `int`, so a file can be too long for them.
-/

namespace Skype

open Library

abbrev newline : UInt8 := 10
abbrev equals : UInt8 := 61
abbrev hash : UInt8 := 35

namespace StringUtils

def blank (ch : UInt8) : Bool := Decimal.isSpace ch || ch == 10 || ch == 9 || ch == 13

def trimLeft (s : ByteString) : ByteString := s.dropWhile blank

def trimRight (s : ByteString) : ByteString := s.rdropWhile blank

def trim (s : ByteString) : ByteString := trimRight (trimLeft s)

end StringUtils

namespace Config

abbrev ConfigMap := Keyed (Prod.fst : ByteString × ByteString → ByteString)

def defaults : ConfigMap where
  entries :=
    [(str "ENV", str "DEV"), (str "TCP_PORT", str "5000"), (str "UDP_PORT", str "7000"),
      (str "SERVER_ADDRESS", str "127.0.0.1"), (str "LOCAL_IP", str "127.0.0.1"),
      (str "REMOTE_IP", str "206.189.0.154"), (str "HEADER_LENGTH", str "10"),
      (str "DB_USER", str "postgres"), (str "DB_PASSWORD", str "postgres"),
      (str "DB_ADDRESS", str "localhost"), (str "DB_NAME", str "skype"),
      (str "DB_PORT", str "5432"), (str "LOGGER_LEVEL", str "trace"),
      (str "DEBUG_ENABLE", str "0")]
  nodup := by decide +kernel

def keyExists (config : ConfigMap) (tKey : ByteString) : Bool := (config.find? tKey).isSome

def value (config : ConfigMap) (tKey : ByteString) : Option ByteString :=
  (config.find? tKey).map Prod.snd

def valueAt (config : ConfigMap) (tKey : ByteString) : Exec ByteString :=
  match value config tKey with
  | some text => .ok text
  | none => .error .outOfRange

def loadLine (config : ConfigMap) (val : ByteString) : Exec ConfigMap := do
  let val := StringUtils.trim val
  if val = [] ∨ val.head? = some hash then return config
  else
    let (key, pair) ← StringUtils.splitFirst val (str "=")
    let key := StringUtils.trim key
    let pair := StringUtils.trim pair
    return if keyExists config key then config.insert (key, pair) else config

def setServerAddress (config : ConfigMap) : Exec ConfigMap := do
  let env ← valueAt config (str "ENV")
  let address ← valueAt config (if env = str "PROD" then str "REMOTE_IP" else str "LOCAL_IP")
  return config.insert (str "SERVER_ADDRESS", address)

def loadConfigContents (config : ConfigMap) (tContents : ByteString) : Exec ConfigMap := do
  let splitString ← StringUtils.split tContents (str "\n")
  let config ← splitString.foldlM loadLine config
  setServerAddress config

def settings (pieces : List ByteString) : List ByteString :=
  (pieces.map StringUtils.trim).filter fun line => line ≠ [] ∧ line.head? ≠ some hash

def lines (tContents : ByteString) : List ByteString :=
  settings (Search.splitOn [newline] tContents)

def keyOf (line : ByteString) : ByteString :=
  StringUtils.trim (Search.cutFirst [equals] line).1

def valueOf (line : ByteString) : ByteString :=
  StringUtils.trim (Search.cutFirst [equals] line).2

def setting (lines : List ByteString) (key : ByteString) : Option ByteString :=
  ((lines.filter fun line => keyOf line = key).getLast?).map valueOf

/-- The keys are those of the defaults, each has the value of its last line or its default,
and the address of the server is the one for the environment. -/
def Loads (tContents : ByteString) (result : Exec ConfigMap) : Prop :=
  ∃ config, result = .ok config ∧
    config.entries.map Prod.fst = defaults.entries.map Prod.fst ∧
    (∀ key, key ≠ str "SERVER_ADDRESS" → value config key =
      (value defaults key).map fun default => (setting (lines tContents) key).getD default) ∧
    value config (str "SERVER_ADDRESS") =
      if value config (str "ENV") = some (str "PROD") then value config (str "REMOTE_IP")
      else value config (str "LOCAL_IP")

/-- Every newline, and the first `=` of every line, is at a position below `2 ^ 31 - 1`. -/
structure Fits (tContents : ByteString) : Prop where
  newlines : ∀ i, tContents[i]? = some newline → i + 1 < 2 ^ 31
  equals : ∀ line ∈ lines tContents, ∀ i, Search.search [equals] line = some i → i + 1 < 2 ^ 31

section

variable {config : ConfigMap} {val : ByteString} {pieces : List ByteString}

theorem value_insert (config : ConfigMap) (key text other : ByteString) :
    value (config.insert (key, text)) other =
      if key = other then some text else value config other := by
  rw [value, Keyed.find?_insert]
  split
  · rfl
  · rfl

theorem keys_insert {key : ByteString} (text : ByteString) (h : keyExists config key = true) :
    (config.insert (key, text)).entries.map Prod.fst = config.entries.map Prod.fst := by
  have hmem : key ∈ config.entries.map Prod.fst := by
    by_contra hnone
    rw [keyExists, (Keyed.find?_eq_none_iff config key).mpr hnone] at h
    cases h
  exact Keyed.map_entries_insert hmem

theorem isSome_value (config : ConfigMap) (key : ByteString) :
    (value config key).isSome = keyExists config key := by
  rw [value, Option.isSome_map, keyExists]

structure Applied (config after : ConfigMap) (lines : List ByteString) : Prop where
  keys : after.entries.map Prod.fst = config.entries.map Prod.fst
  values : ∀ key, value after key =
    (value config key).map fun old => (setting lines key).getD old

theorem Applied.refl (config : ConfigMap) : Applied config config [] := by
  refine ⟨rfl, fun key => ?_⟩
  cases value config key with
  | none => rfl
  | some old => rfl

theorem setting_append_singleton (lines : List ByteString) (line key : ByteString) :
    setting (lines ++ [line]) key =
      if keyOf line = key then some (valueOf line) else setting lines key := by
  unfold setting
  rw [List.filter_append, List.filter_cons, List.filter_nil]
  simp only [decide_eq_true_eq]
  split
  · rw [List.getLast?_concat]
    rfl
  · rw [List.append_nil]

theorem Applied.snoc {after last : ConfigMap} {lines : List ByteString} {line : ByteString}
    (h : Applied config after lines)
    (hlast : last = if keyExists after (keyOf line) then after.insert (keyOf line, valueOf line)
      else after) : Applied config last (lines ++ [line]) := by
  subst hlast
  constructor
  · split
    · next hkey => rw [keys_insert _ hkey, h.keys]
    · exact h.keys
  · intro key
    rw [setting_append_singleton]
    have hvalue := h.values key
    by_cases hkey : keyOf line = key
    · subst hkey
      rw [if_pos rfl, ← isSome_value]
      cases hold : value config (keyOf line) with
      | none =>
        rw [hold] at hvalue
        rw [hvalue]
        exact hvalue
      | some old =>
        rw [hold] at hvalue
        rw [hvalue]
        exact (value_insert _ _ _ _).trans (if_pos rfl)
    · rw [if_neg hkey, ← hvalue]
      split
      · rw [value_insert, if_neg hkey]
      · rfl

theorem length_trim_le (s : ByteString) : (StringUtils.trim s).length ≤ s.length := by
  have hleft := List.length_dropWhile_le StringUtils.blank s
  have hright := (List.rdropWhile_prefix StringUtils.blank (l := StringUtils.trimLeft s)).length_le
  exact hright.trans hleft

theorem settings_append_singleton (pieces : List ByteString) (val : ByteString) :
    settings (pieces ++ [val]) = settings pieces ++ settings [val] := by
  rw [settings, List.map_append, List.filter_append]
  rfl

theorem settings_singleton (val : ByteString) :
    settings [val] =
      if StringUtils.trim val = [] ∨ (StringUtils.trim val).head? = some hash then []
      else [StringUtils.trim val] := by
  rw [settings, List.map_singleton, List.filter_cons, List.filter_nil]
  simp only [decide_eq_true_eq]
  split
  · next h => rw [if_neg (not_or.mpr h)]
  · next h => rw [if_pos (by tauto)]

variable (config) in
theorem loadLine_fits (hlen : val.length < 2 ^ 63)
    (hfits : ∀ line ∈ settings [val], ∀ i, Search.search [equals] line = some i → i + 1 < 2 ^ 31) :
    ∃ after, loadLine config val = .ok after ∧
      ((settings [val] = [] ∧ after = config) ∨
        ∃ line, settings [val] = [line] ∧ after =
          if keyExists config (keyOf line) then config.insert (keyOf line, valueOf line)
          else config) := by
  have hequals : str "=" = [equals] := by decide
  have hshort := length_trim_le val
  rw [settings_singleton] at hfits ⊢
  unfold loadLine
  dsimp only
  split
  · exact ⟨_, rfl, Or.inl ⟨rfl, rfl⟩⟩
  · next hline =>
    rw [if_neg hline] at hfits
    rw [hequals, StringUtils.splitFirst_of_near (by omega) (hfits _ (List.mem_singleton_self _)),
      ok_bind]
    exact ⟨_, rfl, Or.inr ⟨_, rfl, rfl⟩⟩

/-- The induction takes the last piece off, which decides about the key that it names. -/
theorem foldlM_loadLine (config : ConfigMap) (hlen : ∀ val ∈ pieces, val.length < 2 ^ 63)
    (hfits : ∀ line ∈ settings pieces, ∀ i, Search.search [equals] line = some i → i + 1 < 2 ^ 31) :
    ∃ after, pieces.foldlM loadLine config = .ok after ∧
      Applied config after (settings pieces) := by
  induction pieces using List.reverseRecOn with
  | nil => exact ⟨config, rfl, Applied.refl config⟩
  | append_singleton pieces val ih =>
    rw [settings_append_singleton] at hfits ⊢
    obtain ⟨after, hafter, happlied⟩ := ih (fun v hv => hlen v (List.mem_append_left _ hv))
      (fun line hline => hfits line (List.mem_append_left _ hline))
    obtain ⟨last, hlast, hcases⟩ := loadLine_fits after
      (hlen val (List.mem_append_right _ (List.mem_singleton_self val)))
      (fun line hline => hfits line (List.mem_append_right _ hline))
    refine ⟨last, ?_, ?_⟩
    · rw [List.foldlM_append, hafter, ok_bind, List.foldlM_cons, hlast]
      rfl
    · rcases hcases with ⟨hnone, rfl⟩ | ⟨line, hline, hlast⟩
      · rw [hnone, List.append_nil]
        exact happlied
      · rw [hline]
        exact happlied.snoc hlast

theorem value_of_applied {after : ConfigMap} {lines : List ByteString}
    (h : Applied defaults after lines) (key : ByteString) (hkey : keyExists defaults key = true) :
    ∃ text, value after key = some text := by
  rw [← isSome_value, Option.isSome_iff_exists] at hkey
  obtain ⟨default, hdefault⟩ := hkey
  rw [h.values, hdefault]
  exact ⟨_, rfl⟩

theorem setServerAddress_applied {after : ConfigMap} {lines : List ByteString}
    (h : Applied defaults after lines) :
    ∃ config, setServerAddress after = .ok config ∧
      config.entries.map Prod.fst = defaults.entries.map Prod.fst ∧
      (∀ key, key ≠ str "SERVER_ADDRESS" → value config key = value after key) ∧
      value config (str "SERVER_ADDRESS") =
        if value config (str "ENV") = some (str "PROD") then value config (str "REMOTE_IP")
        else value config (str "LOCAL_IP") := by
  obtain ⟨env, henv⟩ := value_of_applied h (str "ENV") (by decide +kernel)
  obtain ⟨remote, hremote⟩ := value_of_applied h (str "REMOTE_IP") (by decide +kernel)
  obtain ⟨local', hlocal⟩ := value_of_applied h (str "LOCAL_IP") (by decide +kernel)
  have hexists : keyExists after (str "SERVER_ADDRESS") = true := by
    obtain ⟨text, htext⟩ := value_of_applied h (str "SERVER_ADDRESS") (by decide +kernel)
    rw [← isSome_value, htext]
    rfl
  have haddress : ∃ address, setServerAddress after =
      .ok (after.insert (str "SERVER_ADDRESS", address)) ∧
        address = if env = str "PROD" then remote else local' := by
    unfold setServerAddress valueAt
    rw [henv]
    dsimp only
    rw [ok_bind]
    by_cases hprod : env = str "PROD"
    · rw [if_pos hprod, if_pos hprod, hremote]
      exact ⟨remote, rfl, rfl⟩
    · rw [if_neg hprod, if_neg hprod, hlocal]
      exact ⟨local', rfl, rfl⟩
  obtain ⟨address, hresult, haddress⟩ := haddress
  have hother : ∀ key, key ≠ str "SERVER_ADDRESS" →
      value (after.insert (str "SERVER_ADDRESS", address)) key = value after key := by
    intro key hkey
    rw [value_insert, if_neg hkey.symm]
  refine ⟨_, hresult, (keys_insert _ hexists).trans h.keys, hother, ?_⟩
  rw [value_insert, if_pos rfl, hother _ (by decide), hother _ (by decide), hother _ (by decide),
    henv, hremote, hlocal, haddress]
  simp only [Option.some.injEq]
  split
  · rfl
  · rfl

theorem near_of_fits {tContents : ByteString}
    (h : ∀ i, tContents[i]? = some newline → i + 1 < 2 ^ 31) :
    StringUtils.Near [newline] tContents := by
  intro a i ha hi
  have hat := Search.getElem?_of_search hi
  rw [List.getElem?_drop] at hat
  exact h _ hat

theorem loads_of_fits {tContents : ByteString} (hlen : tContents.length < 2 ^ 63)
    (h : Fits tContents) : Loads tContents (loadConfigContents defaults tContents) := by
  have hnewline : str "\n" = [newline] := by decide
  obtain ⟨after, hafter, happlied⟩ := foldlM_loadLine defaults
    (fun val hval => (Search.infix_of_mem_splitOn hval).length_le.trans_lt hlen) h.equals
  obtain ⟨config, hconfig, hkeys, hvalues, haddress⟩ := setServerAddress_applied happlied
  refine ⟨config, ?_, hkeys, ?_, haddress⟩
  · rw [loadConfigContents, hnewline,
      StringUtils.split_of_near hlen (near_of_fits h.newlines) (List.cons_ne_nil _ _), ok_bind,
      hafter,
      ok_bind, hconfig]
  · intro key hkey
    rw [hvalues key hkey, happlied.values]
    rfl

theorem toInt_sizeToInt_far {n : ℕ} (h : 2 ^ 31 ≤ n) (hlt : n < 2 ^ 32) :
    (sizeToInt n).toInt = (n : ℤ) - 2 ^ 32 := by
  rw [sizeToInt, Int32.toInt_ofNat', Int.bmod_def, Int32.size]
  omega

theorem sizeToInt_succ (n : ℕ) : sizeToInt (intToSize (sizeToInt n) + 1) = sizeToInt (n + 1) := by
  apply Int32.toInt_inj.mp
  unfold sizeToInt intToSize
  rw [Int32.toInt_ofNat', Int32.toInt_ofNat', Int32.toInt_ofNat', Int.bmod_def, Int.bmod_def,
    Int.bmod_def, Int32.size]
  omega

theorem lt_intToSize_far {n : ℕ} (h : 2 ^ 31 ≤ n) (hlt : n < 2 ^ 32) :
    2 ^ 63 ≤ intToSize (sizeToInt n) := by
  rw [intToSize, toInt_sizeToInt_far h hlt]
  omega

theorem ne_neg_one_far {n : ℕ} (h : n + 1 < 2 ^ 32) : sizeToInt n ≠ -1 := by
  by_cases hsmall : n < 2 ^ 31
  · exact sizeToInt_ne_neg_one hsmall
  · intro hneg
    have hvalue := toInt_sizeToInt_far (by omega) (by omega : n < 2 ^ 32)
    have hone : (-1 : Int32).toInt = -1 := by decide
    rw [hneg, hone] at hvalue
    omega

theorem substr_far {s : ByteString} {pos count : ℕ} (h : s.length < pos) (piece : ByteString) :
    substr s pos count ≠ .ok piece := by
  rw [substr, if_neg (by omega)]
  simp

/-- Behind the newline that is too far the search starts nowhere, and `substr` throws. -/
theorem splitLoop_far {s : ByteString} (hlen : s.length < 2 ^ 32) {q : ℕ}
    (hq : s[q]? = some newline) (hfar : 2 ^ 31 ≤ q + 1) (fuel : ℕ) {a : ℕ} (ha : a ≤ q)
    (pieces : List ByteString) :
    StringUtils.splitLoop s [newline] fuel (sizeToInt a) (sizeToInt (find s [newline] a)) ≠
      .ok pieces := by
  have hqlt : q < s.length := (List.getElem?_eq_some_iff.mp hq).1
  induction fuel generalizing a pieces with
  | zero => simp [StringUtils.splitLoop]
  | succ fuel ih =>
    obtain ⟨i, hi, hle⟩ := Search.search_drop_of_getElem? hq ha
    have hstop := ne_neg_one_far (n := a + i) (by omega)
    intro h
    rw [StringUtils.splitLoop, StringUtils.find_of_search_some (by omega) hi] at h
    obtain ⟨piece, -, h⟩ := bind_eq_ok.mp h
    rw [if_pos hstop] at h
    dsimp only at h
    rw [List.length_singleton, sizeToInt_succ] at h
    obtain ⟨rest, hrest, -⟩ := bind_eq_ok.mp h
    by_cases hnear : a + i + 1 < 2 ^ 31
    · rw [intToSize_sizeToInt hnear] at hrest
      exact ih (by omega) rest hrest
    · have hbehind := lt_intToSize_far (n := a + i + 1) (by omega) (by omega)
      rw [find, if_neg (by omega), sizeToInt_npos] at hrest
      cases fuel with
      | zero => simp [StringUtils.splitLoop] at hrest
      | succ fuel =>
        rw [StringUtils.splitLoop] at hrest
        obtain ⟨piece, hpiece, -⟩ := bind_eq_ok.mp hrest
        exact substr_far (by omega) piece hpiece

theorem splitFirst_far {s : ByteString} (hlen : s.length < 2 ^ 32) {i : ℕ}
    (hi : Search.search [equals] s = some i) (hfar : 2 ^ 31 ≤ i + 1)
    (parts : ByteString × ByteString) : StringUtils.splitFirst s [equals] ≠ .ok parts := by
  have hle := Search.search_le hi
  rw [List.length_singleton] at hle
  have hfind : find s [equals] 0 = i := by
    simpa using StringUtils.find_of_search_some (a := 0) (Nat.zero_le _) (by simpa using hi)
  have hnpos : i ≠ npos := by
    rw [npos]
    omega
  have hne : s ≠ [] := List.ne_nil_of_length_pos (by omega)
  have hbehind := lt_intToSize_far (n := i + 1) (by omega) (by omega)
  intro h
  rw [StringUtils.splitFirst, if_neg hne, hfind] at h
  dsimp only at h
  rw [if_neg hnpos] at h
  obtain ⟨first, -, h⟩ := bind_eq_ok.mp h
  obtain ⟨second, hsecond, -⟩ := bind_eq_ok.mp h
  exact substr_far (by rw [List.length_singleton]; omega) second hsecond

theorem loadLine_far {after : ConfigMap} (hlen : val.length < 2 ^ 32)
    (h : loadLine config val = .ok after) :
    ∀ line ∈ settings [val], ∀ i, Search.search [equals] line = some i → i + 1 < 2 ^ 31 := by
  intro line hline i hi
  have hequals : str "=" = [equals] := by decide
  have hshort := length_trim_le val
  rw [settings_singleton] at hline
  unfold loadLine at h
  dsimp only at h
  split at hline
  · cases hline
  · next hrelevant =>
    obtain rfl := List.mem_singleton.mp hline
    rw [if_neg hrelevant, hequals] at h
    obtain ⟨parts, hparts, -⟩ := bind_eq_ok.mp h
    by_contra hfar
    exact splitFirst_far (by omega) hi (by omega) parts hparts

theorem foldlM_far {after : ConfigMap} (hlen : ∀ val ∈ pieces, val.length < 2 ^ 32)
    (h : pieces.foldlM loadLine config = .ok after) :
    ∀ line ∈ settings pieces, ∀ i, Search.search [equals] line = some i → i + 1 < 2 ^ 31 := by
  induction pieces using List.reverseRecOn generalizing after with
  | nil => simp [settings]
  | append_singleton pieces val ih =>
    rw [List.foldlM_append] at h
    obtain ⟨mid, hmid, h⟩ := bind_eq_ok.mp h
    rw [List.foldlM_cons] at h
    obtain ⟨last, hlast, -⟩ := bind_eq_ok.mp h
    intro line hline
    rw [settings_append_singleton, List.mem_append] at hline
    rcases hline with hline | hline
    · exact ih (fun v hv => hlen v (List.mem_append_left _ hv)) hmid line hline
    · exact loadLine_far (hlen val (List.mem_append_right _ (List.mem_singleton_self val))) hlast
        line hline

theorem not_loaded_of_newline {tContents : ByteString} (hlen : tContents.length < 2 ^ 32) {q : ℕ}
    (hq : tContents[q]? = some newline) (hfar : 2 ^ 31 ≤ q + 1) (config after : ConfigMap) :
    loadConfigContents config tContents ≠ .ok after := by
  have hnewline : str "\n" = [newline] := by decide
  have hzero : sizeToInt 0 = 0 := by decide
  have hsplit := splitLoop_far hlen hq hfar (tContents.length + 1) (Nat.zero_le q)
  intro h
  rw [loadConfigContents, hnewline] at h
  obtain ⟨pieces, hpieces, -⟩ := bind_eq_ok.mp h
  rw [hzero] at hsplit
  exact hsplit pieces hpieces

theorem fits_of_loads {tContents : ByteString} (hlen : tContents.length < 2 ^ 32)
    (h : Loads tContents (loadConfigContents defaults tContents)) : Fits tContents := by
  obtain ⟨config, hresult, -⟩ := h
  have hnewline : str "\n" = [newline] := by decide
  have hnewlines : ∀ i, tContents[i]? = some newline → i + 1 < 2 ^ 31 := by
    intro i hi
    by_contra hfar
    exact not_loaded_of_newline hlen hi (by omega) defaults config hresult
  refine ⟨hnewlines, ?_⟩
  rw [loadConfigContents, hnewline, StringUtils.split_of_near (by omega) (near_of_fits hnewlines)
    (List.cons_ne_nil _ _), ok_bind] at hresult
  obtain ⟨after, hafter, -⟩ := bind_eq_ok.mp hresult
  refine foldlM_far ?_ hafter
  intro val hval
  exact (Search.infix_of_mem_splitOn hval).length_le.trans_lt hlen

end

theorem fits_of_short {tContents : ByteString} (h : tContents.length < 2 ^ 31 - 1) :
    Fits tContents := by
  constructor
  · intro i hi
    obtain ⟨hlt, -⟩ := List.getElem?_eq_some_iff.mp hi
    omega
  · intro line hline i hi
    have hposition := Search.search_le hi
    obtain ⟨val, hval, rfl⟩ := List.mem_map.mp (List.mem_filter.mp hline).1
    have hinside := (Search.infix_of_mem_splitOn hval).length_le
    have htrimmed := length_trim_le val
    simp only [List.length_singleton] at hposition
    omega

/-- A file whose newlines and first `=` are at positions of type `int` is loaded as it says;
below four gigabytes no other file is. -/
theorem loads_iff_fits (tContents : ByteString) (hlen : tContents.length < 2 ^ 63) :
    (Fits tContents → Loads tContents (loadConfigContents defaults tContents)) ∧
      (tContents.length < 2 ^ 32 →
        Loads tContents (loadConfigContents defaults tContents) → Fits tContents) :=
  ⟨loads_of_fits hlen, fits_of_loads⟩

def sampleFile : ByteString := str "# server\n ENV = PROD \r\nREMOTE_IP=10.0.0.9\nENV\nBAD=1"

theorem loads_iff_fits_sample :
    Fits sampleFile ∧ Loads sampleFile (loadConfigContents defaults sampleFile) := by
  have hfits : Fits sampleFile := fits_of_short (by decide)
  exact ⟨hfits, (loads_iff_fits sampleFile (by decide)).1 hfits⟩

def longFile : ByteString := List.replicate (2 ^ 31 - 1) space ++ [newline]

theorem long_file_throws : ¬Loads longFile (loadConfigContents defaults longFile) := by
  rintro ⟨config, hresult, -⟩
  have hlen : longFile.length = 2 ^ 31 := by
    rw [longFile, List.length_append, List.length_replicate, List.length_singleton]
    norm_num
  have hlast : longFile[2 ^ 31 - 1]? = some newline := by
    rw [longFile, List.getElem?_append_right (by rw [List.length_replicate]),
      List.length_replicate, Nat.sub_self]
    rfl
  exact not_loaded_of_newline (by rw [hlen]; decide) hlast (by norm_num) defaults config hresult

end Config

end Skype
