/-
The ports of the local stack: `canListen`, `findAvailablePort` and `ensureRuntimePorts` of
`cli/bin/graphpilot.js`.

Each port is searched on its own, from the one that is configured upwards, and what has
changed is written to the environment file.  Neither search knows what the other finds.

* `search_spec` — a search finds the first free port;
* `portOf_updated`, `portOf_other` — the port that is read of a file that has been written;
* `ensureRuntimePorts_iff` — the two ports are usable if and only if a port from the lower
  of the configured ones up to the higher is free, and the file is such that what has been
  written is read;
* `ensureRuntimePorts_same` — one configured port for both is returned for both.
-/
import GraphPilot.Cli.EnvFile

namespace GraphPilot.Cli

/-- `Number(text)`, where it is a natural number.  A port that is none is refused. -/
structure Host where
  toNumber : Text → Option ℕ

/-- `String(n)` -/
def digits (n : ℕ) : Text := (toString n).toList

/-- What is relied on: a number is read of its digits, a text without characters is `0`,
and a `\r` behind a number makes no difference. -/
structure Documented (host : Host) : Prop where
  toNumber_digits : ∀ n, host.toNumber (digits n) = some n
  toNumber_empty : host.toNumber [] = some 0
  toNumber_cr : ∀ s, host.toNumber (s ++ ['\r']) = host.toNumber s

def backendKey : Text := "BACKEND_PORT".toList
def frontendKey : Text := "FRONTEND_PORT".toList
def apiUrlKey : Text := "VITE_API_URL".toList
def corsKey : Text := "CORS_ORIGINS".toList

/-- `` `http://localhost:${port}` `` -/
def localhost (port : ℕ) : Text := "http://localhost:".toList ++ digits port

/-- `map.get(key) || default` -/
def getOr (map : Text → Option Text) (key default : Text) : Text :=
  match map key with
  | some value => if value = [] then default else value
  | none => default

/-- `Number(envMap.get(key) || default)` -/
def portOf (host : Host) (map : Text → Option Text) (key : Text) (default : ℕ) : Option ℕ :=
  host.toNumber (getOr map key (digits default))

/-- Whether a server can take the port.  Any port will do for port 0. -/
def isFree (occupied : ℕ → Bool) (port : ℕ) : Bool := port = 0 || !occupied port

/-- `canListen`, which throws for a port that is out of range. -/
def canListen (occupied : ℕ → Bool) (port : ℕ) : Except String Bool :=
  if port ≤ 65535 then .ok (isFree occupied port) else .error "ERR_SOCKET_BAD_PORT"

/-- The attempts that are left, from a port upwards. -/
def search (occupied : ℕ → Bool) (startPort : ℕ) : ℕ → ℕ → Except String ℕ
  | 0, _ =>
    .error ("Could not find an available host port starting from " ++ toString startPort)
  | attempts + 1, port =>
    match canListen occupied port with
    | .error e => .error e
    | .ok true => .ok port
    | .ok false => search occupied startPort attempts (port + 1)

/-- `findAvailablePort` -/
def findAvailablePort (occupied : ℕ → Bool) : Option ℕ → Except String ℕ
  | some startPort => search occupied startPort 20 startPort
  | none => .error "ERR_SOCKET_BAD_PORT"

/-- The entries of `updates`, in order. -/
def updatesFor (envMap : Text → Option Text) (backendPort frontendPort : Option ℕ)
    (nextBackendPort nextFrontendPort : ℕ) : List (Text × Text) :=
  let currentCors := getOr envMap corsKey []
  let currentApiUrl := getOr envMap apiUrlKey []
  (if some nextBackendPort ≠ backendPort then
    (backendKey, digits nextBackendPort) ::
      (if backendPort.map localhost = some currentApiUrl then
        [(apiUrlKey, localhost nextBackendPort)] else [])
  else []) ++
  (if some nextFrontendPort ≠ frontendPort then
    (frontendKey, digits nextFrontendPort) ::
      (if frontendPort.map localhost = some currentCors then
        [(corsKey, localhost nextFrontendPort)] else [])
  else [])

/-- What `ensureRuntimePorts` returns, and the file afterwards. -/
structure Assigned where
  backendPort : Option ℕ
  frontendPort : Option ℕ
  file : Option Text

/-- `ensureRuntimePorts` -/
def ensureRuntimePorts (host : Host) (occupied : ℕ → Bool) (running : Bool)
    (file : Option Text) : Except String Assigned :=
  let envMap := readEnvMap file
  let backendPort := portOf host envMap backendKey 8000
  let frontendPort := portOf host envMap frontendKey 3000
  if running then .ok ⟨backendPort, frontendPort, file⟩
  else
    match findAvailablePort occupied backendPort with
    | .error e => .error e
    | .ok nextBackendPort =>
      match findAvailablePort occupied frontendPort with
      | .error e => .error e
      | .ok nextFrontendPort =>
        let updates := updatesFor envMap backendPort frontendPort nextBackendPort nextFrontendPort
        .ok ⟨some nextBackendPort, some nextFrontendPort,
          if updates = [] then file else some (updateEnvValues file updates)⟩

/-! ### The searches -/

section Search

variable {occupied : ℕ → Bool}

theorem canListen_eq_true {port : ℕ} :
    canListen occupied port = .ok true ↔ port ≤ 65535 ∧ isFree occupied port = true := by
  unfold canListen
  split
  · rename_i h
    simp [h]
  · rename_i h
    simp [h]

/-- A search finds the first port that is free. -/
theorem search_spec {startPort attempts port found : ℕ}
    (h : search occupied startPort attempts port = .ok found) :
    port ≤ found ∧ canListen occupied found = .ok true ∧
      ∀ p, port ≤ p → p < found → isFree occupied p = false := by
  induction attempts generalizing port with
  | zero => cases h
  | succ attempts ih =>
    unfold search at h
    split at h
    · cases h
    · rename_i hlisten
      cases h
      exact ⟨Nat.le_refl _, hlisten, fun p hp hlt => by omega⟩
    · rename_i hlisten
      obtain ⟨hle, hfree, hnone⟩ := ih h
      refine ⟨by omega, hfree, fun p hp hlt => ?_⟩
      by_cases heq : p = port
      · subst heq
        unfold canListen at hlisten
        split at hlisten
        · exact Except.ok.inj hlisten
        · cases hlisten
      · exact hnone p (by omega) hlt

/-- A search stays where it is if and only if the first port is free. -/
theorem search_eq_start {startPort attempts port found : ℕ}
    (h : search occupied startPort attempts port = .ok found) :
    found = port ↔ isFree occupied port = true := by
  obtain ⟨hle, hlisten, hnone⟩ := search_spec h
  constructor
  · rintro rfl
    exact (canListen_eq_true.mp hlisten).2
  · intro hfree
    by_contra hne
    rw [hnone port (Nat.le_refl _) (by omega)] at hfree
    cases hfree

/-- Two searches find different ports if and only if there is a free port between the
two starts. -/
theorem search_ne_iff {s s' n n' b f found found' : ℕ} (h : search occupied s n b = .ok found)
    (h' : search occupied s' n' f = .ok found') :
    found ≠ found' ↔ ∃ p, min b f ≤ p ∧ p < max b f ∧ isFree occupied p = true := by
  obtain ⟨hle, hlisten, hnone⟩ := search_spec h
  obtain ⟨hle', hlisten', hnone'⟩ := search_spec h'
  have hfree := (canListen_eq_true.mp hlisten).2
  have hfree' := (canListen_eq_true.mp hlisten').2
  constructor
  · intro hne
    by_contra hno
    push Not at hno
    -- the later start is not beyond the port that is found from the earlier one
    rcases Nat.lt_or_gt_of_ne hne with hlt | hlt
    · by_cases hstart : f ≤ found
      · rw [hnone' found hstart hlt] at hfree
        cases hfree
      · exact hno found (by omega) (by omega) hfree
    · by_cases hstart : b ≤ found'
      · rw [hnone found' hstart hlt] at hfree'
        cases hfree'
      · exact hno found' (by omega) (by omega) hfree'
  · rintro ⟨p, hlo, hhi, hp⟩ heq
    -- the search from the lower start does not go past the free port
    by_cases hpf : p < found
    · by_cases hbp : b ≤ p
      · rw [hnone p hbp hpf] at hp
        cases hp
      · rw [hnone' p (by omega) (by omega)] at hp
        cases hp
    · omega

end Search

/-! ### What is written -/

theorem not_mem_digits {c : Char} (hc : c.isDigit = false) (n : ℕ) : c ∉ digits n := by
  intro hmem
  unfold digits at hmem
  rw [Nat.toString_eq_repr, Nat.toList_repr] at hmem
  rw [Nat.isDigit_of_mem_toDigits (by decide) (by decide) hmem] at hc
  cases hc

theorem digits_ne_nil (n : ℕ) : digits n ≠ [] := by
  unfold digits
  rw [Nat.toString_eq_repr, Nat.toList_repr]
  exact Nat.toDigits_ne_nil

theorem not_mem_localhost {c : Char} (hc : c.isDigit = false)
    (hstem : c ∉ "http://localhost:".toList) (n : ℕ) : c ∉ localhost n := by
  intro hmem
  rcases List.mem_append.mp hmem with hmem | hmem
  · exact hstem hmem
  · exact not_mem_digits hc n hmem

/-- All that may be written. -/
def allUpdates (nextBackendPort nextFrontendPort : ℕ) : List (Text × Text) :=
  [(backendKey, digits nextBackendPort), (apiUrlKey, localhost nextBackendPort),
    (frontendKey, digits nextFrontendPort), (corsKey, localhost nextFrontendPort)]

theorem updatable_allUpdates (n m : ℕ) : Updatable (allUpdates n m) := by
  have hkeys : ∀ key ∈ [backendKey, apiUrlKey, frontendKey, corsKey],
      (trim key = key ∧ '=' ∉ key ∧ key.head? ≠ some '#') ∧ '\n' ∉ key ∧ '\r' ∉ key := by decide
  have hmem : ∀ kv ∈ allUpdates n m, kv.1 ∈ [backendKey, apiUrlKey, frontendKey, corsKey] :=
    fun kv hkv => List.mem_map_of_mem (f := Prod.fst) hkv
  refine ⟨?_, fun kv hkv => (hkeys kv.1 (hmem kv hkv)).1, fun kv hkv => ?_⟩
  · show [backendKey, apiUrlKey, frontendKey, corsKey].Nodup
    decide
  · refine ⟨(hkeys kv.1 (hmem kv hkv)).2, ?_⟩
    simp only [allUpdates, List.mem_cons, List.not_mem_nil, or_false] at hkv
    rcases hkv with rfl | rfl | rfl | rfl
    · exact ⟨not_mem_digits (by decide) n, not_mem_digits (by decide) n⟩
    · exact ⟨not_mem_localhost (by decide) (by decide) n, not_mem_localhost (by decide) (by decide) n⟩
    · exact ⟨not_mem_digits (by decide) m, not_mem_digits (by decide) m⟩
    · exact ⟨not_mem_localhost (by decide) (by decide) m, not_mem_localhost (by decide) (by decide) m⟩

section Updates

variable {envMap : Text → Option Text} {b f n m : ℕ}

theorem sublist_pair {p q : Prop} [Decidable p] [Decidable q] (x y : Text × Text) :
    (if p then x :: (if q then [y] else []) else []).Sublist [x, y] := by
  split
  · split
    · exact List.Sublist.refl _
    · exact (List.nil_sublist _).cons_cons x
  · exact List.nil_sublist _

theorem updatesFor_sublist :
    (updatesFor envMap (some b) (some f) n m).Sublist (allUpdates n m) :=
  (sublist_pair _ _).append (sublist_pair _ _)

theorem updatable_updatesFor : Updatable (updatesFor envMap (some b) (some f) n m) :=
  (updatable_allUpdates n m).mono updatesFor_sublist

theorem updatesFor_eq_nil :
    updatesFor envMap (some b) (some f) n m = [] ↔ n = b ∧ m = f := by
  unfold updatesFor
  dsimp only
  rw [List.append_eq_nil_iff]
  by_cases hb : n = b <;> by_cases hf : m = f <;> simp [hb, hf]

theorem backend_mem_updatesFor (h : n ≠ b) :
    (backendKey, digits n) ∈ updatesFor envMap (some b) (some f) n m := by
  unfold updatesFor
  simp [h]

theorem frontend_mem_updatesFor (h : m ≠ f) :
    (frontendKey, digits m) ∈ updatesFor envMap (some b) (some f) n m := by
  unfold updatesFor
  simp [h]

/-- A port that has not changed is not written. -/
theorem backend_not_mem_updatesFor (h : n = b) :
    ∀ kv ∈ updatesFor envMap (some b) (some f) n m, kv.1 ≠ backendKey := by
  have hkeys : ∀ key ∈ [frontendKey, corsKey], key ≠ backendKey := by decide
  intro kv hkv
  have hsame : ¬ some n ≠ some b := by simp [h]
  unfold updatesFor at hkv
  dsimp only at hkv
  rw [if_neg hsame, List.nil_append] at hkv
  have hpair := (sublist_pair _ _).subset hkv
  exact hkeys kv.1 (List.mem_map_of_mem (f := Prod.fst) hpair)

theorem frontend_not_mem_updatesFor (h : m = f) :
    ∀ kv ∈ updatesFor envMap (some b) (some f) n m, kv.1 ≠ frontendKey := by
  have hkeys : ∀ key ∈ [backendKey, apiUrlKey], key ≠ frontendKey := by decide
  intro kv hkv
  have hsame : ¬ some m ≠ some f := by simp [h]
  unfold updatesFor at hkv
  dsimp only at hkv
  rw [if_neg hsame, List.append_nil] at hkv
  have hpair := (sublist_pair _ _).subset hkv
  exact hkeys kv.1 (List.mem_map_of_mem (f := Prod.fst) hpair)

end Updates

/-! ### What is read afterwards -/

section Reading

variable {host : Host} {map map' : Text → Option Text} {key : Text} {default p n : ℕ}

theorem portOf_digits (hhost : Documented host) (h : map key = some (digits n)) :
    portOf host map key default = some n := by
  unfold portOf getOr
  rw [h]
  dsimp only
  rw [if_neg (digits_ne_nil n), hhost.toNumber_digits]

theorem eq_dropCR_append {value : Text} (h : dropCR value ≠ value) :
    value = dropCR value ++ ['\r'] := by
  unfold dropCR at h ⊢
  split
  · rename_i hlast
    have hne : value ≠ [] := by
      rintro rfl
      cases hlast
    rw [List.getLast?_eq_some_getLast hne, Option.some.injEq] at hlast
    conv_lhs => rw [← List.dropLast_append_getLast hne, hlast]
  · rename_i hlast
    rw [if_neg hlast] at h
    exact absurd rfl h

theorem toNumber_dropCR (hhost : Documented host) (value : Text) :
    host.toNumber (dropCR value) = host.toNumber value := by
  by_cases h : dropCR value = value
  · rw [h]
  · conv_rhs => rw [eq_dropCR_append h, hhost.toNumber_cr]

/-- A value without its `\r` is the same port, unless nothing is left of it. -/
theorem portOf_dropCR (hhost : Documented host) (hmap : map' key = (map key).map dropCR)
    (hne : map key ≠ some ['\r']) : portOf host map' key default = portOf host map key default := by
  unfold portOf getOr
  rw [hmap]
  cases hvalue : map key with
  | none => rfl
  | some value =>
    dsimp only [Option.map_some]
    by_cases hnil : value = []
    · subst hnil
      rfl
    · have hleft : dropCR value ≠ [] := by
        intro hdrop
        by_cases h : dropCR value = value
        · exact hnil (h ▸ hdrop)
        · have heq := eq_dropCR_append h
          rw [hdrop, List.nil_append] at heq
          exact hne (by rw [hvalue, heq])
      rw [if_neg hleft, if_neg hnil, toNumber_dropCR hhost]

/-- A value that is a `\r` is port 0, and the default without it. -/
theorem portOf_cr (hhost : Documented host) (default : ℕ) (hmap : map' key = (map key).map dropCR)
    (h : map key = some ['\r']) :
    portOf host map key default = some 0 ∧ portOf host map' key default = some default := by
  have hcr : host.toNumber ['\r'] = some 0 := by
    have hempty := hhost.toNumber_cr []
    rw [hhost.toNumber_empty] at hempty
    exact hempty
  unfold portOf getOr
  rw [hmap, h]
  exact ⟨hcr, hhost.toNumber_digits default⟩

variable {file : Option Text} {values : List (Text × Text)} {occupied : ℕ → Bool}

/-- The port of a key in the file that has been written.  The key is one of those that are
written if and only if its port `p` was occupied, and then with the port `n`. -/
theorem portOf_updated_iff (hhost : Documented host) (hvalues : Updatable values)
    (hdefault : default ≠ 0) (hp : portOf host (readEnvMap file) key default = some p)
    (hsame : n = p ↔ isFree occupied p = true)
    (hwritten : n ≠ p → (key, digits n) ∈ values)
    (hkept : n = p → ∀ kv ∈ values, kv.1 ≠ key) :
    portOf host (readEnvMap (some (updateEnvValues file values))) key default = some n ↔
      (isFree occupied p = false → (occurrences key (linesOf file)).length ≤ 1) ∧
        (isFree occupied p = true → readEnvMap file key ≠ some ['\r']) := by
  cases hfree : isFree occupied p with
  | true =>
    have heq : n = p := hsame.mpr hfree
    have hmap : readEnvMap (some (updateEnvValues file values)) key =
        (readEnvMap file key).map dropCR := readEnvMap_other hvalues (hkept heq)
    by_cases hcr : readEnvMap file key = some ['\r']
    · -- port 0 is read as the default
      obtain ⟨hzero, hread⟩ := portOf_cr hhost default hmap hcr
      rw [hp] at hzero
      rw [hread, heq, Option.some.inj hzero]
      simp [hcr, hdefault]
    · rw [portOf_dropCR hhost hmap hcr, hp, heq]
      simp [hcr]
  | false =>
    have hne : n ≠ p := fun heq => by
      rw [hsame.mp heq] at hfree
      cases hfree
    have hread : readEnvMap (some (updateEnvValues file values)) key =
        if (occurrences key (linesOf file)).length ≤ 1 then some (digits n)
        else (readEnvMap file key).map dropCR := readEnvMap_updated hvalues (hwritten hne)
    by_cases hlen : (occurrences key (linesOf file)).length ≤ 1
    · rw [if_pos hlen] at hread
      rw [portOf_digits hhost hread]
      simp [hlen]
    · rw [if_neg hlen] at hread
      -- the last line is that of the old port, which is not port 0
      have hcr : readEnvMap file key ≠ some ['\r'] := by
        intro hcr
        have hzero := (portOf_cr hhost default hread hcr).1
        rw [hp] at hzero
        rw [Option.some.inj hzero] at hfree
        cases hfree
      rw [portOf_dropCR hhost hread hcr, hp]
      simp [hlen, Ne.symm hne]

end Reading

/-! ### The two ports -/

/-- The two ports are free and different, each is the configured one or a later one, and
they are those that are read afterwards. -/
structure Usable (host : Host) (occupied : ℕ → Bool) (backendPort frontendPort : ℕ)
    (assigned : Assigned) : Prop where
  exists_ports : ∃ nextBackendPort nextFrontendPort,
    (assigned.backendPort = some nextBackendPort ∧
        assigned.frontendPort = some nextFrontendPort) ∧
      (canListen occupied nextBackendPort = .ok true ∧
        canListen occupied nextFrontendPort = .ok true) ∧
      nextBackendPort ≠ nextFrontendPort ∧
      backendPort ≤ nextBackendPort ∧ frontendPort ≤ nextFrontendPort
  read : portOf host (readEnvMap assigned.file) backendKey 8000 = assigned.backendPort ∧
    portOf host (readEnvMap assigned.file) frontendKey 3000 = assigned.frontendPort

/-- A port from the lower of the configured ones up to the higher is free; a port that is
occupied has one line at most; and where one port is written, the value of the other is
not a single `\r`. -/
structure Separate (occupied : ℕ → Bool) (file : Option Text) (backendPort frontendPort : ℕ) :
    Prop where
  between : ∃ p, min backendPort frontendPort ≤ p ∧ p < max backendPort frontendPort ∧
    isFree occupied p = true
  lines : (isFree occupied backendPort = false →
      (occurrences backendKey (linesOf file)).length ≤ 1) ∧
    (isFree occupied frontendPort = false →
      (occurrences frontendKey (linesOf file)).length ≤ 1)
  values : (isFree occupied backendPort = true → isFree occupied frontendPort = false →
      readEnvMap file backendKey ≠ some ['\r']) ∧
    (isFree occupied frontendPort = true → isFree occupied backendPort = false →
      readEnvMap file frontendKey ≠ some ['\r'])

section Ports

variable {host : Host} {occupied : ℕ → Bool} {file : Option Text} {b f n m : ℕ}

/-- The ports that are read afterwards. -/
theorem read_iff (hhost : Documented host)
    (hb : portOf host (readEnvMap file) backendKey 8000 = some b)
    (hf : portOf host (readEnvMap file) frontendKey 3000 = some f)
    (hn : n = b ↔ isFree occupied b = true) (hm : m = f ↔ isFree occupied f = true)
    {values : List (Text × Text)}
    (hvalues : values = updatesFor (readEnvMap file) (some b) (some f) n m) :
    (portOf host (readEnvMap (if values = [] then file else some (updateEnvValues file values)))
          backendKey 8000 = some n ∧
        portOf host (readEnvMap (if values = [] then file
          else some (updateEnvValues file values))) frontendKey 3000 = some m) ↔
      ((isFree occupied b = false → (occurrences backendKey (linesOf file)).length ≤ 1) ∧
        (isFree occupied f = false → (occurrences frontendKey (linesOf file)).length ≤ 1)) ∧
      ((isFree occupied b = true → isFree occupied f = false →
          readEnvMap file backendKey ≠ some ['\r']) ∧
        (isFree occupied f = true → isFree occupied b = false →
          readEnvMap file frontendKey ≠ some ['\r'])) := by
  have hupdatable : Updatable values := hvalues ▸ updatable_updatesFor
  by_cases hnil : values = []
  · -- nothing is written
    have hboth : n = b ∧ m = f := updatesFor_eq_nil.mp (hvalues ▸ hnil)
    rw [if_pos hnil, hb, hf]
    simp [hboth.1, hboth.2, hn.mp hboth.1, hm.mp hboth.2]
  · have hsome : ¬ (n = b ∧ m = f) := by
      intro hboth
      exact hnil (hvalues.trans (updatesFor_eq_nil.mpr hboth))
    rw [if_neg hnil,
      portOf_updated_iff hhost hupdatable (by decide) hb hn
        (fun h => hvalues ▸ backend_mem_updatesFor h)
        (fun h => hvalues ▸ backend_not_mem_updatesFor h),
      portOf_updated_iff hhost hupdatable (by decide) hf hm
        (fun h => hvalues ▸ frontend_mem_updatesFor h)
        (fun h => hvalues ▸ frontend_not_mem_updatesFor h)]
    -- one port at least was occupied
    rw [hn, hm] at hsome
    cases hbf : isFree occupied b with
    | false => cases hff : isFree occupied f <;> simp
    | true =>
      have hff : isFree occupied f = false := by simpa [hbf] using hsome
      rw [hff]
      simp [and_comm]

/-- What has happened where the ports are returned. -/
theorem ensureRuntimePorts_ok {assigned : Assigned}
    (hb : portOf host (readEnvMap file) backendKey 8000 = some b)
    (hf : portOf host (readEnvMap file) frontendKey 3000 = some f)
    (h : ensureRuntimePorts host occupied false file = .ok assigned) :
    ∃ n m, search occupied b 20 b = .ok n ∧ search occupied f 20 f = .ok m ∧
      assigned = ⟨some n, some m,
        if updatesFor (readEnvMap file) (some b) (some f) n m = [] then file
        else some (updateEnvValues file
          (updatesFor (readEnvMap file) (some b) (some f) n m))⟩ := by
  unfold ensureRuntimePorts at h
  dsimp only at h
  rw [if_neg Bool.false_ne_true, hb, hf] at h
  dsimp only [findAvailablePort] at h
  split at h
  · cases h
  · rename_i n hn
    split at h
    · cases h
    · rename_i m hm
      exact ⟨n, m, hn, hm, (Except.ok.inj h).symm⟩

/-- Where no stack is running and the ports are returned, they are usable if and only if
the configured ones are separate. -/
theorem ensureRuntimePorts_iff (host : Host) (hhost : Documented host) (occupied : ℕ → Bool)
    (file : Option Text) (b f : ℕ)
    (hb : portOf host (readEnvMap file) backendKey 8000 = some b)
    (hf : portOf host (readEnvMap file) frontendKey 3000 = some f) (assigned : Assigned)
    (h : ensureRuntimePorts host occupied false file = .ok assigned) :
    Usable host occupied b f assigned ↔ Separate occupied file b f := by
  obtain ⟨n, m, hn, hm, rfl⟩ := ensureRuntimePorts_ok hb hf h
  obtain ⟨hlaterb, hfreeb, -⟩ := search_spec hn
  obtain ⟨hlaterf, hfreef, -⟩ := search_spec hm
  have hread := read_iff hhost hb hf (search_eq_start hn) (search_eq_start hm) rfl
  have hdifferent := search_ne_iff hn hm
  constructor
  · rintro ⟨⟨n', m', ⟨hn', hm'⟩, -, hne, -⟩, hafter⟩
    cases hn'
    cases hm'
    obtain ⟨hlines, hvalues⟩ := hread.mp hafter
    exact ⟨hdifferent.mp hne, hlines, hvalues⟩
  · rintro ⟨hbetween, hlines, hvalues⟩
    exact ⟨⟨n, m, ⟨rfl, rfl⟩, ⟨hfreeb, hfreef⟩, hdifferent.mpr hbetween, hlaterb, hlaterf⟩,
      hread.mpr ⟨hlines, hvalues⟩⟩

end Ports

namespace Sample

/-- Numbers as digits, with any number of `\r` behind them. -/
def host : Host where
  toNumber s :=
    let number := s.rdropWhile (· = '\r')
    if number = [] then some 0
    else if number.all Char.isDigit then some (Nat.ofDigitChars 10 number 0) else none

theorem documented_host : Documented host where
  toNumber_digits n := by
    have hdigits : digits n = Nat.toDigits 10 n := by
      unfold digits
      rw [Nat.toString_eq_repr, Nat.toList_repr]
    have hkept : (digits n).rdropWhile (· = '\r') = digits n := by
      rw [List.rdropWhile_eq_self_iff]
      intro hne hlast
      have hmem := List.getLast_mem hne
      rw [of_decide_eq_true hlast] at hmem
      exact not_mem_digits (by decide) n hmem
    have hall : (digits n).all Char.isDigit = true := by
      rw [List.all_eq_true, hdigits]
      exact fun c hc => Nat.isDigit_of_mem_toDigits (by decide) (by decide) hc
    unfold host
    dsimp only
    rw [hkept, if_neg (digits_ne_nil n), if_pos hall, hdigits, Nat.ofDigitChars_ten_toDigits]
  toNumber_empty := rfl
  toNumber_cr s := by
    unfold host
    dsimp only
    rw [List.rdropWhile_concat_pos _ _ _ (by simp)]

/-- The port of the backend is taken. -/
def taken (p : ℕ) : Bool := p = 8000

/-- The ports by default, where the backend moves on. -/
def moved : Assigned :=
  ⟨some 8001, some 3000, some (updateEnvValues none [(backendKey, digits 8001)])⟩

/-- One port for both. -/
def shared : Text := "BACKEND_PORT=3000\nFRONTEND_PORT=3000\n".toList

end Sample

theorem ensureRuntimePorts_iff_moved :
    Usable Sample.host Sample.taken 8000 3000 Sample.moved ↔
      Separate Sample.taken none 8000 3000 :=
  ensureRuntimePorts_iff Sample.host Sample.documented_host Sample.taken none 8000 3000
    (Sample.documented_host.toNumber_digits 8000) (Sample.documented_host.toNumber_digits 3000)
    Sample.moved rfl

/-- Each search finds the same free port. -/
theorem ensureRuntimePorts_same : ¬ ∀ (host : Host), Documented host → ∀ (occupied : ℕ → Bool)
    (file : Option Text) (b f : ℕ) (assigned : Assigned),
    portOf host (readEnvMap file) backendKey 8000 = some b →
    portOf host (readEnvMap file) frontendKey 3000 = some f →
    ensureRuntimePorts host occupied false file = .ok assigned →
      Usable host occupied b f assigned := by
  intro h
  have husable := h Sample.host Sample.documented_host (fun _ => false) (some Sample.shared) 3000
    3000 ⟨some 3000, some 3000, some Sample.shared⟩ (by decide) (by decide) rfl
  obtain ⟨n, m, ⟨hn, hm⟩, -, hne, -⟩ := husable.exists_ports
  exact hne (Option.some.inj (hn.symm.trans hm))

end GraphPilot.Cli
