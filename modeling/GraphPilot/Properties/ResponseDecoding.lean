/-
What is made of a response.

The bytes that are read are cut at the first empty line, and what is after it is decoded.
That is the content of the response exactly when no interim response comes before it and
it is not chunked (`decodes_iff`): of an interim response the status is returned, and a
chunked body is decoded with its chunk sizes, which always leaves more line feeds in the
text than there are in the content.
-/
import GraphPilot.Properties.RequestFraming

namespace GraphPilot.SafeHttp

open Python Concurrency
open Http (Bytes Response Head)

/-- The status of the response, its content as text, and the JSON value of that, if it has
one. -/
def Decodes (host : Host) (response : Response) (r : Except Exn Reply) : Prop :=
  ∃ answer, r = .ok answer ∧ answer.statusCode = response.head.status ∧
    answer.bodyText = decode response.content ∧
    ∀ text json, response.content = encode text → host.loads text = some json →
      answer.bodyJson = json

variable {host : Host}

/-! ### The head -/

theorem latin1_append (as bs : Bytes) : latin1 (as ++ bs) = latin1 as ++ latin1 bs := List.map_append

/-- Bytes below 128 are characters of their own. -/
theorem mem_latin1 {bs : Bytes} {b : UInt8} (h : b ∉ bs) : Char.ofNat b.toNat ∉ latin1 bs := by
  intro hmem
  obtain ⟨b', hb', heq⟩ := List.mem_map.mp hmem
  have hlt : b.toNat < 0xd800 ∧ b'.toNat < 0xd800 := by
    have h₁ := b.toNat_lt
    have h₂ := b'.toNat_lt
    omega
  have hnat : b'.toNat = b.toNat := by
    rw [← charOfNat_toNat hlt.1, ← heq, charOfNat_toNat hlt.2]
  rw [UInt8.toNat_inj.mp hnat] at hb'
  exact h hb'

/-- The digits of a number, as text. -/
theorem digits_of_decimal {bs : Bytes} {n : ℕ} (h : Http.decimal bs = some n) :
    latin1 bs ≠ [] ∧ (∀ c ∈ latin1 bs, c.isDigit = true) ∧ Nat.ofDigitChars 10 (latin1 bs) 0 = n := by
  unfold Http.decimal at h
  split at h
  · rename_i hdigits
    obtain ⟨hne, hall⟩ := hdigits
    have hnat : ∀ b : UInt8, (Char.ofNat b.toNat).toNat = b.toNat := by
      intro b
      have hlt := b.toNat_lt
      exact charOfNat_toNat (by omega)
    have hfold : ∀ m, Nat.ofDigitChars 10 (latin1 bs) m =
        bs.foldl (fun n b => n * 10 + (b.toNat - 48)) m := by
      clear hne hall h
      induction bs with
      | nil => intro m; simp [latin1]
      | cons b bs ih =>
        intro m
        show Nat.ofDigitChars 10 (Char.ofNat b.toNat :: latin1 bs) m = _
        rw [Nat.ofDigitChars_cons, ih, List.foldl_cons, hnat, Nat.mul_comm]
        rfl
    refine ⟨fun hnil => hne (List.map_eq_nil_iff.mp hnil), ?_, ?_⟩
    · intro c hc
      obtain ⟨b, hb, rfl⟩ := List.mem_map.mp hc
      obtain ⟨hlo, hhi⟩ : 48 ≤ b ∧ b ≤ 57 := by simpa using List.all_eq_true.mp hall b hb
      rw [Char.isDigit_iff_toNat, hnat]
      exact ⟨UInt8.le_iff_toNat_le.mp hlo, UInt8.le_iff_toNat_le.mp hhi⟩
    · rw [hfold]
      exact Option.some.inj h
  · cases h

/-- The first line of a header, as text. -/
theorem statusLine_eq {line more : Bytes} (hcr : 13 ∉ line)
    (hmore : more = [] ∨ ∃ tail, more = Http.crlf ++ tail) :
    (partition ['\r', '\n'] (latin1 (line ++ more))).1 = latin1 line := by
  have hline : '\r' ∉ latin1 line := mem_latin1 hcr
  unfold partition
  rw [latin1_append]
  rcases hmore with rfl | ⟨tail, rfl⟩
  · rw [show latin1 ([] : Bytes) = [] from rfl, List.append_nil, cut_eq_none hline]
    rfl
  · have hcut : cut ['\r', '\n'] (latin1 line ++ latin1 (Http.crlf ++ tail)) =
        some (latin1 line, latin1 tail) := cut_append (latin1 tail) hline
    rw [hcut]
    rfl

/-- The parts of a status line. -/
theorem split_statusLine {digits : Bytes} (reason : Bytes)
    (hdigits : ∀ c ∈ latin1 digits, c.isDigit = true) :
    splitMax [' '] 2 (latin1 (Http.version ++ 32 :: (digits ++ 32 :: reason))) =
      [latin1 Http.version, latin1 digits, latin1 reason] := by
  have hversion : ' ' ∉ latin1 Http.version := by decide
  have hspace : ' ' ∉ latin1 digits := fun hmem => absurd (hdigits _ hmem) (by decide)
  have hfirst : cut [' '] (latin1 (Http.version ++ 32 :: (digits ++ 32 :: reason))) =
      some (latin1 Http.version, latin1 (digits ++ 32 :: reason)) := by
    rw [latin1_append]
    exact cut_append _ hversion
  have hsecond : cut [' '] (latin1 (digits ++ 32 :: reason)) =
      some (latin1 digits, latin1 reason) := by
    rw [latin1_append]
    exact cut_append _ hspace
  rw [splitMax, hfirst]
  dsimp only
  rw [splitMax, hsecond]
  rfl

/-- What is made of bytes that start with a head. -/
theorem reply_of_head {bs rest : Bytes} {head : Head} (h : Http.readHead bs = some (head, rest)) :
    reply host bs =
      .ok ⟨head.status, decode rest, (host.loads (decode rest)).getD .null⟩ := by
  obtain ⟨digits, reason, more, hcut, hmore, hlen, hdecimal, hcr⟩ := Http.readHead_eq_some h
  obtain ⟨hne, hdigit, hvalue⟩ := digits_of_decimal hdecimal
  have hshort : (latin1 digits).length ≤ 4300 := by
    unfold latin1
    rw [List.length_map, hlen]
    decide
  have hheader : headerAndBody bs =
      (latin1 (Http.version ++ 32 :: (digits ++ 32 :: reason) ++ more), rest) := by
    unfold headerAndBody partition
    rw [hcut]
    rfl
  unfold reply
  rw [hheader]
  dsimp only
  rw [statusLine_eq hcr hmore, split_statusLine reason hdigit]
  dsimp only
  rw [host.isdigit_digits _ hne hdigit, host.int_digits _ hne hshort hdigit, hvalue]
  rfl

/-! ### The content -/

/-- A text is not that of other bytes with more line feeds. -/
theorem decode_ne {as bs : Bytes} (h : as.count 10 < bs.count 10) : decode bs ≠ decode as := by
  intro heq
  have hcount := count_decode bs
  rw [heq, count_decode] at hcount
  omega

theorem decodes_reply {bs : Bytes} {response : Response}
    (h : Http.readResponse bs = some response) :
    Decodes host response (reply host bs) ↔ response.interim = [] ∧ response.how ≠ .chunked := by
  obtain ⟨hfinal, head, rest, hhead, hcases⟩ := Http.readResponseFrom_cases h
  rw [reply_of_head hhead]
  constructor
  · rintro ⟨answer, heq, hstatus, htext, -⟩
    cases heq
    rcases hcases with ⟨hinterim, -⟩ | hends
    · -- the status is that of an interim response
      have hnat : head.status = response.head.status := Int.ofNat_inj.mp hstatus
      omega
    · rcases hends.content with ⟨-, hchunks⟩ | ⟨hhow, -⟩
      · have hcount := Http.count_of_readChunks hchunks
        exact absurd htext (decode_ne (by omega))
      · exact ⟨hends.interim, hhow⟩
  · rintro ⟨hinterim, hhow⟩
    rcases hcases with ⟨-, hne⟩ | hends
    · exact absurd hinterim hne
    · rcases hends.content with ⟨hchunked, -⟩ | ⟨-, hcontent⟩
      · exact absurd hchunked hhow
      · refine ⟨_, rfl, ?_, ?_, ?_⟩
        · rw [hends.head]
        · rw [hcontent]
        · intro text json htext hloads
          rw [hcontent] at htext
          show (host.loads (decode rest)).getD .null = json
          rw [htext, decode_encode, hloads]
          rfl

/-! ### Every call -/

/-- Who has read anything has connected. -/
theorem connected_of_received {tr : Trace Ans Exn} (h : received tr ≠ []) :
    ∃ x ∈ tr, OnConnection x.1 := by
  obtain ⟨b, hb⟩ := List.exists_mem_of_ne_nil _ h
  obtain ⟨⟨o, x⟩, hx, hmem⟩ := List.mem_flatMap.mp hb
  refine ⟨_, hx, ?_⟩
  cases o with
  | getaddrinfo name port => cases hmem
  | _ => trivial

namespace Sample

/-- `HTTP/1.1 200 OK`, and two bytes. -/
def okResponse : Bytes := encode "HTTP/1.1 200 OK\r\nContent-Length: 2\r\n\r\nhi"

/-- The same, in one chunk. -/
def chunkedResponse : Bytes :=
  encode "HTTP/1.1 200 OK\r\nTransfer-Encoding: chunked\r\n\r\n2\r\nhi\r\n0\r\n\r\n"

theorem read_ok : Http.readResponse okResponse =
    some ⟨[], ⟨200, [⟨encode "Content-Length", encode "2"⟩]⟩, .length 2, encode "hi"⟩ := rfl

theorem read_chunked : Http.readResponse chunkedResponse =
    some ⟨[], ⟨200, [⟨encode "Transfer-Encoding", encode "chunked"⟩]⟩, .chunked, encode "hi"⟩ :=
  rfl

theorem ok_fits : okResponse ≠ [] ∧ okResponse.length ≤ maxResponseBytes := by decide

/-- A run in which this is what is read. -/
def answered (bs : Bytes) : Trace Ans Exn :=
  [⟨.getaddrinfo "api.example" none, .ok ["8.8.8.8"]⟩,
   ⟨.getaddrinfo "api.example" (some 443), .ok ["8.8.8.8"]⟩,
   ⟨.openConnection "8.8.8.8" 443 (some "api.example"), .ok ()⟩,
   ⟨.write (blob url), .ok ()⟩,
   ⟨.drain, .ok ()⟩,
   ⟨.read 65536, .ok bs⟩,
   ⟨.read 65536, .ok []⟩,
   ⟨.close, .ok ()⟩,
   ⟨.waitClosed, .ok ()⟩]

theorem received_answered (bs : Bytes) : received (answered bs) = bs := List.append_nil bs

theorem calm_cons {o : Op} {a : Ans o} {tr : Trace Ans Exn} (h : Calm tr) :
    Calm (⟨o, .ok a⟩ :: tr) := by
  intro o' exc hmem
  rcases List.mem_cons.mp hmem with heq | hmem
  · cases heq
  · exact h o' exc hmem

theorem calm_answered (bs : Bytes) : Calm (answered bs) := by
  have hnil : Calm [] := fun o exc hmem => absurd hmem List.not_mem_nil
  unfold answered
  repeat' apply calm_cons
  exact hnil

theorem gives_answered {bs : Bytes} (hne : bs ≠ []) (hsize : bs.length ≤ maxResponseBytes) :
    ((Call.safe .none).request (Sample.host publicAddress url) "GET" "" noHeaders).Gives (answered bs)
      (reply (Sample.host publicAddress url) bs) := by
  have hle : ¬ maxResponseBytes < 0 + bs.length := by omega
  refine ⟨_, _, rfl, _, _, rfl, _, _, rfl, _, _, rfl, _, _, rfl, ?_⟩
  show (((receive maxResponseBytes 0).tryFinally (Call.safe .none).closing).bind fun raw =>
    ofExcept (reply (Sample.host publicAddress url) raw)).Gives _ _
  rw [receive]
  refine ⟨_, _, rfl, ?_⟩
  show (((if bs = [] then _ else _ : Client Bytes).tryFinally _).bind _).Gives _ _
  rw [if_neg hne, if_neg hle, receive]
  refine ⟨_, _, rfl, _, _, rfl, _, _, rfl, ?_⟩
  show (ofExcept (reply (Sample.host publicAddress url) (bs ++ []))).Gives [] _
  rw [List.append_nil]
  cases reply (Sample.host publicAddress url) bs with
  | ok answer => exact ⟨rfl, rfl⟩
  | error exc => exact ⟨rfl, rfl⟩

end Sample

end GraphPilot.SafeHttp
