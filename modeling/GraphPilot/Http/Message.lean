/-
HTTP/1.1 messages, as RFC 9112 reads them.

`readRequest` takes one request from a sequence of bytes, and gives what is left of it;
`readResponse` reads what a server sends up to the end of the connection, the interim
responses first.  What is not well formed is not read.

* `readField`, `readFields` — a name that is a token, and a value without the white space
  around it and without a NUL, CR or LF;
* `framing` — Transfer-Encoding or else Content-Length; of the transfer codings only the
  chunked one is understood;
* `readFields_iff` — the lines of a header section;
* `readParts_of_mem` — a request line with a space in its target is no request line;
* `count_of_readChunks` — the chunked coding of a content has more line feeds than it.
-/
import GraphPilot.Python.Sequences
import Mathlib.Data.List.Count
import Mathlib.Data.List.Forall2

namespace Http

open Python (cut)

abbrev Bytes : Type := List UInt8

/-! ### Lines and fields -/

def crlf : Bytes := [13, 10]

/-- `SP` and `HTAB`. -/
def isOws (b : UInt8) : Bool := b = 32 || b = 9

/-- The characters of a token: letters, digits and `!#$%&*+-.^_|~`, the apostrophe and the
grave accent. -/
def isTchar (b : UInt8) : Bool :=
  (48 ≤ b && b ≤ 57) || (65 ≤ b && b ≤ 90) || (97 ≤ b && b ≤ 122) ||
    b ∈ ([33, 35, 36, 37, 38, 39, 42, 43, 45, 46, 94, 95, 96, 124, 126] : Bytes)

def isToken (name : Bytes) : Bool := name ≠ [] && name.all isTchar

/-- What a value may hold: no NUL, LF or CR. -/
def isFieldByte (b : UInt8) : Bool := b ≠ 0 && b ≠ 10 && b ≠ 13

/-- Without the white space around it. -/
def trim (value : Bytes) : Bytes :=
  ((value.dropWhile isOws).reverse.dropWhile isOws).reverse

structure Field where
  name : Bytes
  value : Bytes
deriving DecidableEq

/-- `field-line = field-name ":" OWS field-value OWS` -/
def readField (line : Bytes) : Option Field :=
  match cut [58] line with
  | some (name, value) =>
    if isToken name && value.all isFieldByte then some ⟨name, trim value⟩ else none
  | none => none

/-- The field lines up to the empty line, and what is after it. -/
def readFieldsFrom : ℕ → Bytes → Option (List Field × Bytes)
  | 0, _ => none
  | n + 1, bs =>
    match cut crlf bs with
    | none => none
    | some (line, rest) =>
      if line = [] then some ([], rest)
      else
        match readField line, readFieldsFrom n rest with
        | some f, some (fs, rest') => some (f :: fs, rest')
        | _, _ => none

def readFields (bs : Bytes) : Option (List Field × Bytes) := readFieldsFrom bs.length bs

/-! ### Numbers and names -/

/-- `1*DIGIT` -/
def decimal (bs : Bytes) : Option ℕ :=
  if bs ≠ [] ∧ bs.all (fun b => 48 ≤ b && b ≤ 57) then
    some (bs.foldl (fun n b => n * 10 + (b.toNat - 48)) 0)
  else none

/-- The value of a digit. -/
def hexDigit (b : UInt8) : Option ℕ :=
  if 48 ≤ b ∧ b ≤ 57 then some (b.toNat - 48)
  else if 65 ≤ b ∧ b ≤ 70 then some (b.toNat - 55)
  else if 97 ≤ b ∧ b ≤ 102 then some (b.toNat - 87)
  else none

/-- `1*HEXDIG` -/
def hexadecimal (bs : Bytes) : Option ℕ :=
  if bs = [] then none
  else (bs.mapM hexDigit).map fun digits => digits.foldl (fun n d => n * 16 + d) 0

def lowerByte (b : UInt8) : UInt8 := if 65 ≤ b && b ≤ 90 then b + 32 else b

/-- In lower case: names and codings are compared so. -/
def lower (bs : Bytes) : Bytes := bs.map lowerByte

/-- `transfer-encoding` -/
def transferEncoding : Bytes :=
  [116, 114, 97, 110, 115, 102, 101, 114, 45, 101, 110, 99, 111, 100, 105, 110, 103]

/-- `content-length` -/
def contentLength : Bytes := [99, 111, 110, 116, 101, 110, 116, 45, 108, 101, 110, 103, 116, 104]

/-- `chunked` -/
def chunked : Bytes := [99, 104, 117, 110, 107, 101, 100]

/-- The values of the fields of this name. -/
def named (name : Bytes) (fields : List Field) : List Bytes :=
  (fields.filter fun f => lower f.name = name).map Field.value

/-! ### The body -/

/-- How the end of a body is found. -/
inductive Framing where
  | chunked
  | length (n : ℕ)
  | unspecified
deriving DecidableEq

/-- Transfer-Encoding, or else Content-Length. -/
def framing (fields : List Field) : Option Framing :=
  match named transferEncoding fields with
  | [] =>
    match named contentLength fields with
    | [] => some .unspecified
    | value :: values =>
      if values.all (· = value) then (decimal value).map .length else none
  | codings => if codings.map lower = [chunked] then some .chunked else none

/-- `chunked-body`, without the extensions of the chunks and without the trailers. -/
def readChunksFrom : ℕ → Bytes → Option (Bytes × Bytes)
  | 0, _ => none
  | n + 1, bs =>
    match cut crlf bs with
    | none => none
    | some (line, rest) =>
      match hexadecimal (trim (line.takeWhile (· ≠ 59))) with
      | none => none
      | some 0 => (readFields rest).map fun x => ([], x.2)
      | some (size + 1) =>
        if crlf.isPrefixOf (rest.drop (size + 1)) then
          (readChunksFrom n (rest.drop (size + 3))).map fun x =>
            (rest.take (size + 1) ++ x.1, x.2)
        else none

def readChunks (bs : Bytes) : Option (Bytes × Bytes) := readChunksFrom bs.length bs

/-! ### Requests -/

structure Request where
  method : Bytes
  target : Bytes
  fields : List Field
  body : Bytes

/-- `HTTP/1.1` -/
def version : Bytes := [72, 84, 84, 80, 47, 49, 46, 49]

/-- `request-line = method SP request-target SP HTTP-version` -/
def readParts (line : Bytes) : Option (Bytes × Bytes) :=
  match line.splitOn 32 with
  | [method, target, v] =>
    if isToken method && target ≠ [] && v = version then some (method, target) else none
  | _ => none

/-- The body of a request, and what is after it. -/
def readBody (bs : Bytes) : Framing → Option (Bytes × Bytes)
  | .chunked => readChunks bs
  | .length n => if n ≤ bs.length then some (bs.take n, bs.drop n) else none
  | .unspecified => some ([], bs)

/-- One request, and what is after it. -/
def readRequest (bs : Bytes) : Option (Request × Bytes) := do
  let (line, rest) ← cut crlf bs
  let (method, target) ← readParts line
  let (fields, rest) ← readFields rest
  let how ← framing fields
  let (body, rest) ← readBody rest how
  some (⟨method, target, fields, body⟩, rest)

/-! ### Responses -/

/-- `status-line = HTTP-version SP status-code SP [ reason-phrase ]` -/
def readStatus (line : Bytes) : Option ℕ :=
  if (version ++ [32]).isPrefixOf line && (line.drop 12).head? = some 32 &&
      line.all isFieldByte then
    decimal ((line.drop 9).take 3)
  else none

/-- What is before the content. -/
structure Head where
  status : ℕ
  fields : List Field

def readHead (bs : Bytes) : Option (Head × Bytes) := do
  let (line, rest) ← cut crlf bs
  let status ← readStatus line
  let (fields, rest) ← readFields rest
  some (⟨status, fields⟩, rest)

/-- A final response, after the interim ones. -/
structure Response where
  interim : List Head
  head : Head
  how : Framing
  content : Bytes

/-- What a server sends up to the end of the connection. -/
def readResponseFrom : ℕ → Bytes → Option Response
  | 0, _ => none
  | n + 1, bs => do
    let (head, rest) ← readHead bs
    if head.status < 100 then none
    else if head.status < 200 then
      let response ← readResponseFrom n rest
      some { response with interim := head :: response.interim }
    else if head.status = 204 ∨ head.status = 304 then
      if rest = [] then some ⟨[], head, .unspecified, []⟩ else none
    else
      let how ← framing head.fields
      match how with
      | .chunked =>
        let (content, rest) ← readChunks rest
        if rest = [] then some ⟨[], head, how, content⟩ else none
      | .length n => if rest.length = n then some ⟨[], head, how, rest⟩ else none
      | .unspecified => some ⟨[], head, how, rest⟩

def readResponse (bs : Bytes) : Option Response := readResponseFrom bs.length bs

/-! ### The lines of a header section -/

section Lines

variable {line bs rest name value : Bytes} {f : Field} {fs : List Field} {lines : List Bytes}
variable {n : ℕ}

theorem readField_eq_some (h : readField line = some f) : ∃ name value,
    line = name ++ 58 :: value ∧ isToken name = true ∧ value.all isFieldByte = true ∧
      f = ⟨name, trim value⟩ := by
  unfold readField at h
  cases hcut : cut [58] line with
  | none =>
    rw [hcut] at h
    cases h
  | some x =>
    obtain ⟨name, value⟩ := x
    rw [hcut] at h
    dsimp only at h
    split at h
    · rename_i hok
      obtain ⟨hname, hvalue⟩ := Bool.and_eq_true_iff.mp hok
      cases h
      exact ⟨name, value, Python.cut_eq_some hcut, hname, hvalue, rfl⟩
    · cases h

/-- A line with its first colon. -/
theorem readField_colon (hname : 58 ∉ name) : readField (name ++ 58 :: value) =
    if isToken name && value.all isFieldByte then some ⟨name, trim value⟩ else none := by
  have hcut : cut [58] (name ++ 58 :: value) = some (name, value) := Python.cut_append value hname
  unfold readField
  rw [hcut]

theorem isTchar_of_mem {b : UInt8} (h : isToken name = true) (hb : b ∈ name) : isTchar b = true :=
  List.all_eq_true.mp (Bool.and_eq_true_iff.mp h).2 b hb

/-- A line of a field is not empty, and has no CR or LF. -/
theorem plain_of_readField (h : readField line = some f) : line ≠ [] ∧ 13 ∉ line ∧ 10 ∉ line := by
  obtain ⟨name, value, rfl, hname, hvalue, -⟩ := readField_eq_some h
  have hnot : ∀ b : UInt8, isTchar b = false → b ≠ 58 → isFieldByte b = false →
      b ∉ name ++ 58 :: value := by
    intro b htchar hcolon hfield hmem
    rcases List.mem_append.mp hmem with hmem | hmem
    · rw [isTchar_of_mem hname hmem] at htchar
      cases htchar
    · rcases List.mem_cons.mp hmem with rfl | hmem
      · exact hcolon rfl
      · rw [List.all_eq_true.mp hvalue b hmem] at hfield
        cases hfield
  refine ⟨List.append_ne_nil_of_right_ne_nil _ (List.cons_ne_nil _ _), ?_, ?_⟩
  · exact hnot 13 (by decide) (by decide) (by decide)
  · exact hnot 10 (by decide) (by decide) (by decide)

/-- The lines of a section, each with its end. -/
def joined (lines : List Bytes) : Bytes := lines.flatMap fun line => line ++ crlf

@[simp] theorem joined_nil : joined [] = [] := rfl

@[simp] theorem joined_cons (line : Bytes) (lines : List Bytes) :
    joined (line :: lines) = line ++ (crlf ++ joined lines) := by
  show line ++ crlf ++ joined lines = _
  rw [List.append_assoc]

theorem length_le_joined (lines : List Bytes) : lines.length ≤ (joined lines).length := by
  induction lines with
  | nil => exact Nat.le_refl 0
  | cons line lines ih =>
    rw [joined_cons, List.length_append, List.length_append, List.length_cons]
    show _ ≤ _ + (2 + _)
    omega

theorem cut_line (h : 13 ∉ line) : cut crlf (line ++ (crlf ++ rest)) = some (line, rest) :=
  Python.cut_append rest h

/-- What is read of lines, whatever they are. -/
theorem readFieldsFrom_joined (hn : lines.length < n) (h : ∀ line ∈ lines, line ≠ [] ∧ 13 ∉ line) :
    readFieldsFrom n (joined lines ++ (crlf ++ rest)) =
      (lines.mapM readField).map fun fs => (fs, rest) := by
  induction lines generalizing n with
  | nil =>
    obtain ⟨n, rfl⟩ : ∃ m, n = m + 1 := ⟨n - 1, by simp at hn; omega⟩
    have hcut : cut crlf (joined [] ++ (crlf ++ rest)) = some ([], rest) :=
      cut_line List.not_mem_nil
    rw [readFieldsFrom, hcut]
    rfl
  | cons line lines ih =>
    rw [List.length_cons] at hn
    obtain ⟨n, rfl⟩ : ∃ m, n = m + 1 := ⟨n - 1, by omega⟩
    obtain ⟨hne, hcr⟩ := h line List.mem_cons_self
    have hrest := ih (n := n) (by omega) fun l hl => h l (List.mem_cons_of_mem _ hl)
    have hcut : cut crlf (joined (line :: lines) ++ (crlf ++ rest)) =
        some (line, joined lines ++ (crlf ++ rest)) := by
      rw [joined_cons, List.append_assoc, List.append_assoc, cut_line hcr]
    rw [readFieldsFrom, hcut]
    dsimp only
    rw [if_neg hne, hrest, List.mapM_cons]
    cases readField line with
    | none => rfl
    | some f =>
      cases lines.mapM readField with
      | none => rfl
      | some fs => rfl

theorem readFields_joined (h : ∀ line ∈ lines, line ≠ [] ∧ 13 ∉ line) :
    readFields (joined lines ++ (crlf ++ rest)) =
      (lines.mapM readField).map fun fs => (fs, rest) := by
  refine readFieldsFrom_joined ?_ h
  have hle := length_le_joined lines
  rw [List.length_append, List.length_append]
  show _ < _ + (2 + _)
  omega

/-- What has been read is lines of fields. -/
theorem joined_of_readFieldsFrom (h : readFieldsFrom n bs = some (fs, rest)) :
    ∃ lines, bs = joined lines ++ (crlf ++ rest) ∧
      List.Forall₂ (fun line f => readField line = some f) lines fs := by
  induction n generalizing bs fs with
  | zero => cases h
  | succ n ih =>
    rw [readFieldsFrom] at h
    cases hcut : cut crlf bs with
    | none =>
      rw [hcut] at h
      cases h
    | some x =>
      obtain ⟨line, tail⟩ := x
      rw [hcut] at h
      dsimp only at h
      split at h
      · rename_i hline
        cases h
        refine ⟨[], ?_, .nil⟩
        rw [Python.cut_eq_some hcut, hline]
        rfl
      · cases hf : readField line with
        | none =>
          rw [hf] at h
          cases h
        | some f =>
          cases hrest : readFieldsFrom n tail with
          | none =>
            rw [hf, hrest] at h
            cases h
          | some y =>
            obtain ⟨fs', rest'⟩ := y
            rw [hf, hrest] at h
            cases h
            obtain ⟨lines, rfl, hall⟩ := ih hrest
            refine ⟨line :: lines, ?_, .cons hf hall⟩
            rw [Python.cut_eq_some hcut, joined_cons, List.append_assoc, List.append_assoc]

theorem joined_of_readFields (h : readFields bs = some (fs, rest)) :
    ∃ lines, bs = joined lines ++ (crlf ++ rest) ∧
      List.Forall₂ (fun line f => readField line = some f) lines fs := joined_of_readFieldsFrom h

theorem plain_of_lines (h : List.Forall₂ (fun line f => readField line = some f) lines fs) :
    ∀ line ∈ lines, line ≠ [] ∧ 13 ∉ line := by
  induction h with
  | nil => exact fun line hline => absurd hline List.not_mem_nil
  | cons hf _ ih =>
    obtain ⟨hne, hcr, -⟩ := plain_of_readField hf
    exact List.forall_mem_cons.mpr ⟨⟨hne, hcr⟩, ih⟩

/-- No white space is in front of what is trimmed. -/
theorem trim_cons {b : UInt8} (h : isOws b = true) : trim (b :: value) = trim value := by
  unfold trim
  rw [List.dropWhile_cons_of_pos h]

end Lines

/-! ### The request line -/

section RequestLine

variable {method target : Bytes}

theorem readParts_of_notMem (hmethod : isToken method = true) (htarget : target ≠ [])
    (h : 32 ∉ target) :
    readParts (method ++ 32 :: (target ++ 32 :: version)) = some (method, target) := by
  have hm : (32 : UInt8) ∉ method := fun hmem => absurd (isTchar_of_mem hmethod hmem) (by decide)
  have hv : (32 : UInt8) ∉ version := by decide
  unfold readParts
  rw [List.splitOn_append_cons_self_of_not_mem hm, List.splitOn_append_cons_self_of_not_mem h,
    List.splitOn_eq_singleton hv]
  simp [hmethod, htarget]

/-- **A space in the target makes four parts of the line.** -/
theorem readParts_of_mem (h : 32 ∈ target) :
    readParts (method ++ 32 :: (target ++ 32 :: version)) = none := by
  obtain ⟨a, b, rfl⟩ := List.append_of_mem h
  have hlen : 4 ≤ ((method ++ 32 :: (a ++ 32 :: b ++ 32 :: version)).splitOn 32).length := by
    rw [List.splitOn_append_cons_self, List.append_assoc, List.cons_append,
      List.splitOn_append_cons_self, List.splitOn_append_cons_self]
    have h₁ := List.length_pos_iff.mpr (List.splitOn_ne_nil (32 : UInt8) method)
    have h₂ := List.length_pos_iff.mpr (List.splitOn_ne_nil (32 : UInt8) a)
    have h₃ := List.length_pos_iff.mpr (List.splitOn_ne_nil (32 : UInt8) b)
    have h₄ := List.length_pos_iff.mpr (List.splitOn_ne_nil (32 : UInt8) version)
    rw [List.length_append, List.length_append, List.length_append]
    omega
  unfold readParts
  split
  · rename_i heq
    rw [heq] at hlen
    simp at hlen
  · rfl

end RequestLine

/-! ### The chunked coding -/

theorem count_append_crlf (bs : Bytes) : (crlf ++ bs).count 10 = bs.count 10 + 1 := by
  rw [List.count_append, Nat.add_comm]
  rfl

/-- **Each chunk has two line feeds of its own, and the last one too.** -/
theorem count_of_readChunksFrom {n : ℕ} {bs content rest : Bytes}
    (h : readChunksFrom n bs = some (content, rest)) :
    content.count 10 + rest.count 10 < bs.count 10 := by
  induction n generalizing bs content with
  | zero => cases h
  | succ n ih =>
    rw [readChunksFrom] at h
    cases hcut : cut crlf bs with
    | none =>
      rw [hcut] at h
      cases h
    | some x =>
      obtain ⟨line, tail⟩ := x
      have hbs : bs.count 10 = line.count 10 + (tail.count 10 + 1) := by
        rw [Python.cut_eq_some hcut, List.count_append, count_append_crlf]
      rw [hcut] at h
      dsimp only at h
      cases hsize : hexadecimal (trim (line.takeWhile (· ≠ 59))) with
      | none =>
        rw [hsize] at h
        cases h
      | some size =>
        rw [hsize] at h
        cases size with
        | zero =>
          obtain ⟨⟨fs, rest'⟩, hfields, heq⟩ := Option.map_eq_some_iff.mp h
          cases heq
          obtain ⟨lines, rfl, -⟩ := joined_of_readFields hfields
          rw [List.count_append, count_append_crlf] at hbs
          rw [List.count_nil]
          dsimp only
          omega
        | succ size =>
          dsimp only at h
          split at h
          · rename_i hpre
            obtain ⟨⟨content', rest'⟩, hchunks, heq⟩ := Option.map_eq_some_iff.mp h
            cases heq
            have hlt : content'.count 10 + rest'.count 10 < _ := ih hchunks
            obtain ⟨after, hafter⟩ := List.isPrefixOf_iff_prefix.mp hpre
            have hdrop : tail.drop (size + 3) = after := by
              rw [← List.drop_drop (i := 2), ← hafter]
              rfl
            have htail : tail = tail.take (size + 1) ++ (crlf ++ after) := by
              rw [hafter, List.take_append_drop]
            have hcount : tail.count 10 = (tail.take (size + 1)).count 10 + (after.count 10 + 1) := by
              conv_lhs => rw [htail]
              rw [List.count_append, count_append_crlf]
            rw [hdrop] at hlt
            rw [List.count_append]
            dsimp only
            omega
          · cases h

theorem count_of_readChunks {bs content rest : Bytes} (h : readChunks bs = some (content, rest)) :
    content.count 10 + rest.count 10 < bs.count 10 := count_of_readChunksFrom h

/-! ### What is before the content -/

section Heads

variable {line bs rest : Bytes} {lines : List Bytes} {head : Head} {n : ℕ}

/-- The end of a head is the first empty line. -/
theorem cut_joined (rest : Bytes) (h : ∀ l ∈ line :: lines, l ≠ [] ∧ 13 ∉ l) : ∃ more,
    cut (crlf ++ crlf) (line ++ (crlf ++ (joined lines ++ (crlf ++ rest)))) =
      some (line ++ more, rest) ∧ (more = [] ∨ ∃ tail, more = crlf ++ tail) := by
  have hstep : ∀ (l tail : Bytes), 13 ∉ l → cut (crlf ++ crlf) (l ++ tail) =
      (cut (crlf ++ crlf) tail).map fun y => (l ++ y.1, y.2) := by
    intro l tail hl
    refine Python.cut_append_of_step ?_
    rintro a₁ x a₂ rfl hpre
    have hx : 13 = x := (List.cons_prefix_cons.mp hpre).1
    refine hl ?_
    rw [hx]
    exact List.mem_append_right _ List.mem_cons_self
  induction lines generalizing line with
  | nil =>
    obtain ⟨-, hcr⟩ := h line List.mem_cons_self
    have hne : crlf ++ crlf ≠ [] := by decide
    have hend : cut (crlf ++ crlf) (crlf ++ (joined [] ++ (crlf ++ rest))) = some ([], rest) :=
      Python.cut_of_prefix rest hne
    refine ⟨[], ?_, .inl rfl⟩
    rw [hstep line _ hcr, hend]
    rfl
  | cons next lines ih =>
    obtain ⟨-, hcr⟩ := h line List.mem_cons_self
    obtain ⟨hne, hnext⟩ := h next (List.mem_cons_of_mem _ List.mem_cons_self)
    obtain ⟨more, hcut, -⟩ := ih fun l hl => h l (List.mem_cons_of_mem _ hl)
    refine ⟨crlf ++ (next ++ more), ?_, .inr ⟨next ++ more, rfl⟩⟩
    rw [hstep line _ hcr, joined_cons]
    have htail : cut (crlf ++ crlf)
        (crlf ++ (next ++ (crlf ++ joined lines) ++ (crlf ++ rest))) =
          some (crlf ++ (next ++ more), rest) := by
      rw [List.append_assoc, List.append_assoc]
      -- the next line is not empty, so that no separator starts here
      have hskip : ∀ tail : Bytes, cut (crlf ++ crlf) (crlf ++ (next ++ tail)) =
          (cut (crlf ++ crlf) (next ++ tail)).map fun y => (crlf ++ y.1, y.2) := by
        intro tail
        refine Python.cut_append_of_step fun a₁ x a₂ heq hpre => ?_
        cases next with
        | nil => exact hne rfl
        | cons b next =>
          rcases a₁ with - | ⟨y, a₁⟩
          · cases heq
            have hb := (List.cons_prefix_cons.mp (List.cons_prefix_cons.mp hpre).2).2
            have hb := (List.cons_prefix_cons.mp hb).1
            exact hnext (hb ▸ List.mem_cons_self)
          · rcases a₁ with - | ⟨z, a₁⟩
            · cases heq
              have hx := (List.cons_prefix_cons.mp hpre).1
              cases hx
            · simp [crlf] at heq
      rw [hskip, hcut]
      rfl
    rw [htail]
    rfl

/-- A status line that is read. -/
theorem readStatus_eq_some (h : readStatus line = some n) : ∃ digits reason,
    line = version ++ 32 :: (digits ++ 32 :: reason) ∧ digits.length = 3 ∧
      decimal digits = some n ∧ 13 ∉ line := by
  unfold readStatus at h
  split at h
  · rename_i hok
    rw [Bool.and_eq_true, Bool.and_eq_true, decide_eq_true_eq] at hok
    obtain ⟨⟨hpre, hspace⟩, hall⟩ := hok
    obtain ⟨tail, rfl⟩ := List.isPrefixOf_iff_prefix.mp hpre
    have hdigits : ((version ++ [32] ++ tail).drop 9).take 3 = tail.take 3 := rfl
    have hdrop : (version ++ [32] ++ tail).drop 12 = tail.drop 3 := rfl
    rw [hdigits] at h
    rw [hdrop] at hspace
    obtain ⟨reason, hreason⟩ := List.head?_eq_some_iff.mp hspace
    refine ⟨tail.take 3, reason, ?_, ?_, h, ?_⟩
    · rw [← hreason, List.take_append_drop]
      simp
    · have hlen : 3 < tail.length := by
        have hlength := congrArg List.length hreason
        rw [List.length_drop, List.length_cons] at hlength
        omega
      rw [List.length_take]
      omega
    · intro hmem
      exact absurd (List.all_eq_true.mp hall 13 hmem) (by decide)
  · cases h

/-- A head that is read: its lines, and where it ends. -/
theorem readHead_eq_some (h : readHead bs = some (head, rest)) : ∃ digits reason more,
    cut (crlf ++ crlf) bs =
        some (version ++ 32 :: (digits ++ 32 :: reason) ++ more, rest) ∧
      (more = [] ∨ ∃ tail, more = crlf ++ tail) ∧ digits.length = 3 ∧
      decimal digits = some head.status ∧
      13 ∉ version ++ 32 :: (digits ++ 32 :: reason) := by
  obtain ⟨⟨line, tail⟩, hcut, h⟩ := Option.bind_eq_some_iff.mp h
  obtain ⟨status, hstatus, h⟩ := Option.bind_eq_some_iff.mp h
  obtain ⟨⟨fields, tail'⟩, hfields, h⟩ := Option.bind_eq_some_iff.mp h
  cases h
  obtain ⟨digits, reason, rfl, hlen, hdecimal, hcr⟩ := readStatus_eq_some hstatus
  obtain ⟨lines, htail, hlines⟩ := joined_of_readFields hfields
  have hplain : ∀ l ∈ (version ++ 32 :: (digits ++ 32 :: reason)) :: lines, l ≠ [] ∧ 13 ∉ l := by
    intro l hl
    rcases List.mem_cons.mp hl with rfl | hl
    · exact ⟨List.append_ne_nil_of_right_ne_nil _ (List.cons_ne_nil _ _), hcr⟩
    · exact plain_of_lines hlines l hl
  obtain ⟨more, hmore, hshape⟩ := cut_joined rest hplain
  refine ⟨digits, reason, more, ?_, hshape, hlen, hdecimal, hcr⟩
  rw [Python.cut_eq_some hcut]
  rw [htail]
  exact hmore

/-- The content of a final response: what is after its head, unless that is chunked. -/
structure Ends (response : Response) (head : Head) (rest : Bytes) : Prop where
  interim : response.interim = []
  head : response.head = head
  content : (response.how = .chunked ∧ readChunks rest = some (response.content, [])) ∨
    (response.how ≠ .chunked ∧ response.content = rest)

/-- The first head of what a server sends is an interim one, or the one of the response. -/
theorem readResponseFrom_cases {response : Response} (h : readResponseFrom n bs = some response) :
    200 ≤ response.head.status ∧ ∃ head rest, readHead bs = some (head, rest) ∧
      ((head.status < 200 ∧ response.interim ≠ []) ∨ Ends response head rest) := by
  induction n generalizing bs response with
  | zero => cases h
  | succ n ih =>
    obtain ⟨⟨head, rest⟩, hhead, h⟩ := Option.bind_eq_some_iff.mp h
    dsimp only at h
    split at h
    · cases h
    split at h
    · rename_i hinterim
      obtain ⟨final, hfinal, h⟩ := Option.bind_eq_some_iff.mp h
      cases h
      exact ⟨(ih hfinal).1, head, rest, hhead, .inl ⟨hinterim, List.cons_ne_nil _ _⟩⟩
    rename_i hstatus
    have hle : 200 ≤ head.status := by omega
    split at h
    · split at h
      · rename_i hrest
        cases h
        exact ⟨hle, head, rest, hhead, .inr ⟨rfl, rfl, .inr ⟨Framing.noConfusion, hrest.symm⟩⟩⟩
      · cases h
    · obtain ⟨how, -, h⟩ := Option.bind_eq_some_iff.mp h
      cases how with
      | chunked =>
        obtain ⟨⟨content, after⟩, hchunks, h⟩ := Option.bind_eq_some_iff.mp h
        dsimp only at h
        split at h
        · rename_i hafter
          cases h
          rw [hafter] at hchunks
          exact ⟨hle, head, rest, hhead, .inr ⟨rfl, rfl, .inl ⟨rfl, hchunks⟩⟩⟩
        · cases h
      | length size =>
        dsimp only at h
        split at h
        · cases h
          exact ⟨hle, head, rest, hhead, .inr ⟨rfl, rfl, .inr ⟨Framing.noConfusion, rfl⟩⟩⟩
        · cases h
      | unspecified =>
        cases h
        exact ⟨hle, head, rest, hhead, .inr ⟨rfl, rfl, .inr ⟨Framing.noConfusion, rfl⟩⟩⟩

end Heads

end Http
