import Myoj.Http.Server
import Myoj.Lib.Numerals

/-!
# Response — what a client reads of a response

* `readMessage` — reading bytes as an HTTP/1.1 message: the status line, header lines up to an empty
  one, and a body as long as `Content-Length` says, or all the rest where there is none;
* `HttpResponse.text` — what `appendToBuffer` appends for a `Plain` response;
* `readStatusCode_appendToBuffer` — the first line alone, whatever the headers and the body are;
* `readBack_iff` — the response is read back precisely when its body has no NUL.
-/

namespace Myoj
namespace Http

open Net

/-! ## Reading a message -/

structure ResponseMessage where
  statusCode : Nat
  statusMessage : Bytes
  headers : List (Bytes × Bytes)
  body : Bytes
  deriving DecidableEq, Repr

/-- A line, and what comes after its CR LF. -/
def takeLine : Bytes → Option (Bytes × Bytes)
  | [] => none
  | b :: rest =>
      if b = 13 ∧ rest.head? = some 10 then some ([], rest.tail)
      else (takeLine rest).map fun p => (b :: p.1, p.2)

theorem takeLine_append {line : Bytes} (h : 13 ∉ line) (rest : Bytes) :
    takeLine (line ++ 13 :: 10 :: rest) = some (line, rest) := by
  induction line with
  | nil =>
      rfl
  | cons b line ih =>
      rw [List.mem_cons, not_or] at h
      rw [List.cons_append, takeLine, if_neg fun hb => h.1 hb.1.symm, ih h.2]
      rfl

theorem length_of_takeLine {input line rest : Bytes} (h : takeLine input = some (line, rest)) :
    rest.length < input.length := by
  induction input generalizing line with
  | nil =>
      cases h
  | cons b input ih =>
      rw [takeLine] at h
      split at h
      · next hend =>
        cases input with
        | nil =>
            cases hend.2
        | cons b' input =>
            cases h
            simp only [List.tail_cons, List.length_cons]
            omega
      · obtain ⟨p, hp, heq⟩ := Option.map_eq_some_iff.1 h
        cases heq
        have hlen := ih hp
        simp only [List.length_cons]
        omega

/-- `HTTP/1.1 code message`. -/
def readStatusLine (line : Bytes) : Option (Nat × Bytes) :=
  if bytes "HTTP/1.1 " <+: line then
    match cutAt 32 (line.drop 9) with
    | none => none
    | some (code, message) =>
        if code ≠ [] ∧ code.all Numerals.isdigit then some (Numerals.value code, message) else none
  else none

/-- The bytes after the colon, without the space that separates them from it. -/
def fieldValue : Bytes → Bytes
  | [] => []
  | b :: value => if b = 32 then value else b :: value

/-- Header lines up to an empty line, and what comes after that. -/
def readHeaders (input : Bytes) : Option (List (Bytes × Bytes) × Bytes) :=
  match _h : takeLine input with
  | none => none
  | some (line, rest) =>
      if line = [] then some ([], rest)
      else
        match cutAt 58 line with
        | none => none
        | some (name, value) => (readHeaders rest).map fun p => ((name, fieldValue value) :: p.1, p.2)
termination_by input.length
decreasing_by exact length_of_takeLine _h

/-- How long the body is, if a header says so. -/
def contentLength (headers : List (Bytes × Bytes)) : Option Nat :=
  (headers.lookup (bytes "Content-Length")).map Numerals.value

/-- A message, and the bytes that are not part of it. -/
def readMessage (input : Bytes) : Option (ResponseMessage × Bytes) := do
  let (line, rest) ← takeLine input
  let (statusCode, statusMessage) ← readStatusLine line
  let (headers, rest) ← readHeaders rest
  match contentLength headers with
  | none => return (⟨statusCode, statusMessage, headers, rest⟩, [])
  | some n =>
      -- a body that breaks off is no message
      if n ≤ rest.length then return (⟨statusCode, statusMessage, headers, rest.take n⟩, rest.drop n)
      else none

/-- Name, colon, space and value for each header. -/
def fieldLines (headers : List (Bytes × Bytes)) : Bytes :=
  headers.flatMap fun h => h.1 ++ bytes ": " ++ h.2 ++ bytes "\r\n"

theorem readHeaders_fieldLines {headers : List (Bytes × Bytes)}
    (h : ∀ x ∈ headers, 58 ∉ x.1 ∧ 13 ∉ x.1 ∧ 13 ∉ x.2) (rest : Bytes) :
    readHeaders (fieldLines headers ++ bytes "\r\n" ++ rest) = some (headers, rest) := by
  have hcrlf : bytes "\r\n" = [13, 10] := by decide
  have hsep : bytes ": " = [58, 32] := by decide
  induction headers with
  | nil =>
      have hempty : fieldLines [] ++ bytes "\r\n" ++ rest = [] ++ 13 :: 10 :: rest := by
        simp [fieldLines, hcrlf]
      have hline := takeLine_append (List.not_mem_nil) rest
      rw [hempty, readHeaders]
      split
      · next hnone => cases hline.symm.trans hnone
      · next hsome =>
        cases hline.symm.trans hsome
        rfl
  | cons x headers ih =>
      obtain ⟨hcolon, hname, hvalue⟩ := h x (List.mem_cons_self)
      have hrest := ih fun y hy => h y (List.mem_cons_of_mem _ hy)
      have hsplit : fieldLines (x :: headers) ++ bytes "\r\n" ++ rest =
          (x.1 ++ 58 :: 32 :: x.2) ++ 13 :: 10 :: (fieldLines headers ++ bytes "\r\n" ++ rest) := by
        simp [fieldLines, hcrlf, hsep]
      have hcr : 13 ∉ x.1 ++ 58 :: 32 :: x.2 := by simp [hname, hvalue]
      have hline := takeLine_append hcr (fieldLines headers ++ bytes "\r\n" ++ rest)
      rw [hsplit, readHeaders]
      split
      · next hnone => cases hline.symm.trans hnone
      · next hsome =>
        cases hline.symm.trans hsome
        rw [if_neg (by simp), cutAt_append hcolon]
        simp only [hrest]
        rfl

theorem readStatusLine_of_code {code message : Bytes} (hne : code ≠ [])
    (hdigits : code.all Numerals.isdigit = true) :
    readStatusLine (bytes "HTTP/1.1 " ++ code ++ 32 :: message) = some (Numerals.value code, message) := by
  have hspace : 32 ∉ code := by
    intro hmem
    exact absurd (List.all_eq_true.1 hdigits _ hmem) (by decide)
  have hlength : (bytes "HTTP/1.1 ").length = 9 := by decide
  rw [readStatusLine, List.append_assoc, if_pos (List.prefix_append ..), ← hlength, List.drop_left,
    cutAt_append hspace]
  exact if_pos ⟨hne, hdigits⟩

/-! ## The text of a response -/

namespace HttpResponse

/-- A response in the range of a message: a status code of at most nine digits, one-line texts without
NUL, names without a colon that are not those `appendToBuffer` writes itself, and a body whose length
has at most thirteen digits. -/
structure Plain (r : HttpResponse) : Prop where
  code : 0 ≤ r.statusCode_ ∧ r.statusCode_ < 10 ^ 9
  message : ∀ b ∈ r.statusMessage_, b ∉ bytes "\r\n\x00"
  line : ∀ h ∈ r.headers_, (∀ b ∈ h.1, b ∉ bytes "\r\n\x00") ∧ ∀ b ∈ h.2, b ∉ bytes "\r\n\x00"
  name : ∀ h ∈ r.headers_, 58 ∉ h.1 ∧ h.1 ≠ bytes "Content-Length" ∧ h.1 ≠ bytes "Connection"
  body : r.body_.length < 10 ^ 13

/-- The headers `appendToBuffer` writes itself. -/
def framing (r : HttpResponse) : List (Bytes × Bytes) :=
  if r.closeConnection_ then [(bytes "Connection", bytes "close")]
  else [(bytes "Content-Length", decimal r.body_.length), (bytes "Connection", bytes "keep-Alive")]

/-- The body is a C string by the time it is appended. -/
def text (r : HttpResponse) : Bytes :=
  bytes "HTTP/1.1 " ++ decimal r.statusCode_ ++ 32 :: r.statusMessage_ ++ bytes "\r\n" ++
    fieldLines (r.framing ++ r.headers_) ++ bytes "\r\n" ++ cstr r.body_

theorem snprintf_of_lt {size : Nat} {text : Bytes} (h : text.length < size) : snprintf size text = text :=
  List.take_of_length_le (by omega)

theorem readable_foldl_append {α : Type} (f : α → Bytes) (xs : List α) (output : Buffer) :
    (xs.foldl (fun output x => output.append (f x)) output).readable =
      output.readable ++ xs.flatMap f := by
  induction xs generalizing output with
  | nil =>
      simp
  | cons x xs ih =>
      rw [List.foldl_cons, ih, Buffer.readable_append, List.flatMap_cons, List.append_assoc]

variable {r : HttpResponse}

theorem Plain.clean (h : r.Plain) : ∀ x ∈ r.headers_, 0 ∉ x.1 ++ bytes ": " ++ x.2 ++ bytes "\r\n" := by
  intro x hx
  obtain ⟨hname, hvalue⟩ := h.line x hx
  have hname0 : 0 ∉ x.1 := fun hmem => hname _ hmem (by decide)
  have hvalue0 : 0 ∉ x.2 := fun hmem => hvalue _ hmem (by decide)
  have hsep : 0 ∉ bytes ": " := by decide
  have hcrlf : 0 ∉ bytes "\r\n" := by decide
  simp [hname0, hvalue0, hsep, hcrlf]

/-- Nothing but the body is cut short. -/
theorem readable_appendToBuffer (h : r.Plain) (output : Buffer) :
    (r.appendToBuffer output).readable = output.readable ++ r.text := by
  obtain ⟨code, hcode⟩ := Int.eq_ofNat_of_zero_le h.code.1
  have hcode_lt : code < 10 ^ 9 := by
    have hlt := h.code.2
    rw [hcode] at hlt
    exact_mod_cast hlt
  have hdigits : (decimal code).length ≤ 9 := Numerals.length_to_string_le (by decide) hcode_lt
  have hlength : (decimal r.body_.length).length ≤ 13 := Numerals.length_to_string_le (by decide) h.body
  have hhttp : (bytes "HTTP/1.1 ").length = 9 := by decide
  have hspace : bytes " " = [32] := by decide
  have hlabel : (bytes "Content-Length: ").length = 16 := by decide
  have hcrlf : (bytes "\r\n").length = 2 := by decide
  -- the two lines that are printed into 32 bytes fit, the second one to the last byte
  have hstatus : snprintf 32 (bytes "HTTP/1.1 " ++ decimal code ++ bytes " ") =
      bytes "HTTP/1.1 " ++ decimal code ++ bytes " " := by
    refine snprintf_of_lt ?_
    simp only [List.length_append, hhttp, hspace, List.length_singleton]
    omega
  have hcontent : snprintf 32 (bytes "Content-Length: " ++ decimal r.body_.length ++ bytes "\r\n") =
      bytes "Content-Length: " ++ decimal r.body_.length ++ bytes "\r\n" := by
    refine snprintf_of_lt ?_
    simp only [List.length_append, hlabel, hcrlf]
    omega
  have hmessage : cstr r.statusMessage_ = r.statusMessage_ :=
    cstr_of_not_mem fun hmem => h.message _ hmem (by decide)
  have hheaders : r.headers_.flatMap (fun x => cstr (x.1 ++ bytes ": " ++ x.2 ++ bytes "\r\n")) =
      fieldLines r.headers_ :=
    List.flatMap_congr fun x hx => cstr_of_not_mem (h.clean x hx)
  have hclose : bytes "Connection: close\r\n" =
      bytes "Connection" ++ bytes ": " ++ bytes "close" ++ bytes "\r\n" := by decide
  have hkeep : bytes "Connection: keep-Alive\r\n" =
      bytes "Connection" ++ bytes ": " ++ bytes "keep-Alive" ++ bytes "\r\n" := by decide
  have hlabel' : bytes "Content-Length: " = bytes "Content-Length" ++ bytes ": " := by decide
  simp only [appendToBuffer, hcode, hstatus, hcontent, hmessage, readable_foldl_append, hheaders,
    Buffer.readable_append]
  cases hconn : r.closeConnection_ with
  | true =>
      simp [text, framing, hconn, fieldLines, hclose, hspace, hcode]
  | false =>
      simp [text, framing, hconn, fieldLines, hkeep, hlabel', hspace, hcode]

/-! ## The status -/

/-- The status code at the beginning of what a client receives. -/
def readStatusCode (input : Bytes) : Option Nat := do
  let (line, _) ← takeLine input
  let (statusCode, _) ← readStatusLine line
  return statusCode

/-- The headers and the body come after the first line. -/
theorem prefix_appendToBuffer (r : HttpResponse) (output : Buffer) :
    output.readable ++ (snprintf 32 (bytes "HTTP/1.1 " ++ decimal r.statusCode_ ++ bytes " ") ++
      (cstr r.statusMessage_ ++ bytes "\r\n")) <+: (r.appendToBuffer output).readable := by
  simp only [appendToBuffer, readable_foldl_append, Buffer.readable_append]
  cases r.closeConnection_ with
  | true =>
      simp only [if_true, Buffer.readable_append, List.append_assoc, List.prefix_append_right_inj]
      exact List.prefix_append ..
  | false =>
      simp only [Bool.false_eq_true, if_false, Buffer.readable_append, List.append_assoc,
        List.prefix_append_right_inj]
      exact List.prefix_append ..

theorem readStatusCode_appendToBuffer {code size : Nat} (hcode : r.statusCode_ = code)
    (hlt : code < 10 ^ 9) (hmessage : 13 ∉ cstr r.statusMessage_) :
    readStatusCode (r.appendToBuffer (.new size)).readable = some code := by
  have hall : (decimal code).all Numerals.isdigit = true := Numerals.isdigit_to_string code
  have hne : decimal code ≠ [] := Numerals.to_string_ne_nil code
  have hvalue : Numerals.value (decimal code) = code := Numerals.value_to_string code
  have hlength : (decimal code).length ≤ 9 := Numerals.length_to_string_le (by decide) hlt
  have hhttp : (bytes "HTTP/1.1 ").length = 9 ∧ 13 ∉ bytes "HTTP/1.1 " := by decide
  have hspace : bytes " " = [32] := by decide
  have hcrlf : bytes "\r\n" = [13, 10] := by decide
  have hfits : snprintf 32 (bytes "HTTP/1.1 " ++ decimal code ++ bytes " ") =
      bytes "HTTP/1.1 " ++ decimal code ++ bytes " " := by
    refine snprintf_of_lt ?_
    simp only [List.length_append, hhttp.1, hspace, List.length_singleton]
    omega
  have hdigits : 13 ∉ decimal code := fun hmem => absurd (List.all_eq_true.1 hall _ hmem) (by decide)
  have hcr : 13 ∉ bytes "HTTP/1.1 " ++ decimal code ++ 32 :: cstr r.statusMessage_ := by
    simp [hhttp.2, hdigits, hmessage]
  obtain ⟨rest, hrest⟩ := prefix_appendToBuffer r (.new size)
  have hsplit : (r.appendToBuffer (.new size)).readable =
      (bytes "HTTP/1.1 " ++ decimal code ++ 32 :: cstr r.statusMessage_) ++ 13 :: 10 :: rest := by
    rw [← hrest, hcode, hfits, Buffer.readable_new]
    simp [hspace, hcrlf]
  rw [readStatusCode, hsplit, takeLine_append hcr]
  simp only [Option.bind_eq_bind, Option.bind_some, readStatusLine_of_code hne hall, hvalue]
  rfl

/-! ## Reading it back -/

theorem contentLength_headers (h : r.Plain) :
    contentLength (r.framing ++ r.headers_) = if r.closeConnection_ then none else some r.body_.length := by
  have hnone : r.headers_.lookup (bytes "Content-Length") = none := by
    rw [List.lookup_eq_none_iff]
    intro x hx
    simpa using (h.name x hx).2.1.symm
  have hconnection : (bytes "Content-Length" == bytes "Connection") = false := by decide
  cases hconn : r.closeConnection_ with
  | true =>
      simp [contentLength, framing, hconn, List.lookup_cons, hconnection, hnone]
  | false =>
      have hvalue : Numerals.value (decimal r.body_.length) = r.body_.length := Numerals.value_to_string _
      simp [contentLength, framing, hconn, hvalue]

/-- The headers that come back, without those `appendToBuffer` writes itself. -/
def given (headers : List (Bytes × Bytes)) : List (Bytes × Bytes) :=
  headers.filter fun x => x.1 ≠ bytes "Content-Length" ∧ x.1 ≠ bytes "Connection"

theorem given_headers (h : r.Plain) : given (r.framing ++ r.headers_) = r.headers_ := by
  have hframing : given r.framing = [] := by
    unfold framing
    cases r.closeConnection_ <;> simp [given]
  have hheaders : given r.headers_ = r.headers_ :=
    List.filter_eq_self.2 fun x hx => by simpa using (h.name x hx).2
  rw [given, List.filter_append, ← given, ← given, hframing, hheaders, List.nil_append]

theorem Plain.fields (h : r.Plain) : ∀ x ∈ r.framing ++ r.headers_, 58 ∉ x.1 ∧ 13 ∉ x.1 ∧ 13 ∉ x.2 := by
  have hdecimal : 13 ∉ decimal r.body_.length := by
    intro hmem
    exact absurd (List.all_eq_true.1 (Numerals.isdigit_to_string r.body_.length) _ hmem) (by decide)
  have hnames : ∀ name ∈ [bytes "Content-Length", bytes "Connection"], 58 ∉ name ∧ 13 ∉ name := by decide
  have hvalues : ∀ value ∈ [bytes "close", bytes "keep-Alive"], 13 ∉ value := by decide
  intro x hx
  rcases List.mem_append.1 hx with hframing | hheader
  · unfold framing at hframing
    split at hframing
    · cases List.mem_singleton.1 hframing
      exact ⟨(hnames _ (by simp)).1, (hnames _ (by simp)).2, hvalues _ (by simp)⟩
    · rcases List.mem_pair.1 hframing with rfl | rfl
      · exact ⟨(hnames _ (by simp)).1, (hnames _ (by simp)).2, hdecimal⟩
      · exact ⟨(hnames _ (by simp)).1, (hnames _ (by simp)).2, hvalues _ (by simp)⟩
  · obtain ⟨hname, hvalue⟩ := h.line x hheader
    exact ⟨(h.name x hheader).1, fun hmem => hname _ hmem (by decide), fun hmem => hvalue _ hmem (by decide)⟩

/-- What a client reads: on a connection that stays open it waits for the bytes that are announced. -/
theorem readMessage_text (h : r.Plain) {code : Nat} (hcode : r.statusCode_ = code) :
    readMessage r.text =
      if r.closeConnection_ then
        some (⟨code, r.statusMessage_, r.framing ++ r.headers_, cstr r.body_⟩, [])
      else if r.body_.length ≤ (cstr r.body_).length then
        some (⟨code, r.statusMessage_, r.framing ++ r.headers_, (cstr r.body_).take r.body_.length⟩,
          (cstr r.body_).drop r.body_.length)
      else none := by
  have hcrlf : bytes "\r\n" = [13, 10] := by decide
  have hhttp : 13 ∉ bytes "HTTP/1.1 " := by decide
  have hmessage : 13 ∉ r.statusMessage_ := fun hmem => h.message _ hmem (by decide)
  have hall : (decimal code).all Numerals.isdigit = true := Numerals.isdigit_to_string code
  have hdigits : 13 ∉ decimal code := fun hmem => absurd (List.all_eq_true.1 hall _ hmem) (by decide)
  have hsplit : r.text = (bytes "HTTP/1.1 " ++ decimal code ++ 32 :: r.statusMessage_) ++ 13 :: 10 ::
      (fieldLines (r.framing ++ r.headers_) ++ bytes "\r\n" ++ cstr r.body_) := by
    simp [text, hcode, hcrlf]
  have hcr : 13 ∉ bytes "HTTP/1.1 " ++ decimal code ++ 32 :: r.statusMessage_ := by
    simp [hhttp, hdigits, hmessage]
  have hline := takeLine_append hcr
    (fieldLines (r.framing ++ r.headers_) ++ bytes "\r\n" ++ cstr r.body_)
  have hstatus : readStatusLine (bytes "HTTP/1.1 " ++ decimal code ++ 32 :: r.statusMessage_) =
      some (code, r.statusMessage_) := by
    have hne : decimal code ≠ [] := Numerals.to_string_ne_nil code
    have hvalue : Numerals.value (decimal code) = code := Numerals.value_to_string code
    rw [readStatusLine_of_code hne hall, hvalue]
  rw [hsplit, readMessage, hline]
  simp only [Option.bind_eq_bind, Option.bind_some, hstatus, readHeaders_fieldLines h.fields,
    contentLength_headers h]
  cases r.closeConnection_ <;> rfl

/-- Whatever the buffer holds already, the bytes appended to it are one message, with the status, the
headers and the body of the response; where a length is announced, it is that of the body. -/
def ReadBack (r : HttpResponse) : Prop :=
  ∀ output : Buffer, ∃ appended m,
    (r.appendToBuffer output).readable = output.readable ++ appended ∧
    readMessage appended = some (m, []) ∧
    (m.statusCode : Int) = r.statusCode_ ∧ m.statusMessage = r.statusMessage_ ∧
    given m.headers = r.headers_ ∧ m.body = r.body_ ∧
    (r.closeConnection_ = false → contentLength m.headers = some m.body.length)

/-- **Framing of responses.**  A response is read back precisely when its body has no NUL. -/
theorem readBack_iff (h : r.Plain) : r.ReadBack ↔ 0 ∉ r.body_ := by
  obtain ⟨code, hcode⟩ := Int.eq_ofNat_of_zero_le h.code.1
  have hmessage := readMessage_text h hcode
  constructor
  · intro hback hmem
    obtain ⟨appended, m, hreadable, hread, -, -, -, hbody, -⟩ := hback (.new kInitialSize)
    rw [readable_appendToBuffer h, Buffer.readable_new, List.nil_append, List.nil_append] at hreadable
    rw [← hreadable, hmessage] at hread
    have hshort : (cstr r.body_).length < r.body_.length := length_cstr_lt_iff.2 hmem
    split at hread
    · -- on a connection that is closed the message ends early
      cases hread
      have hlen := congrArg List.length hbody
      exact absurd hlen hshort.ne
    · -- on one that stays open it does not end at all
      rw [if_neg (Nat.not_le.2 hshort)] at hread
      cases hread
  · intro hfree output
    have hcstr : cstr r.body_ = r.body_ := cstr_of_not_mem hfree
    refine ⟨r.text, ⟨code, r.statusMessage_, r.framing ++ r.headers_, r.body_⟩,
      readable_appendToBuffer h output, ?_, hcode.symm, rfl, given_headers h, rfl, fun hopen => ?_⟩
    · rw [hmessage, hcstr, if_pos le_rfl, List.take_length, List.drop_length, ite_self]
    · rw [contentLength_headers h, if_neg (by simp [hopen])]

/-- The answer of a test server, with a picture that begins like a PNG file does. -/
def favicon : HttpResponse where
  headers_ := [(bytes "Content-Type", bytes "image/png")]
  statusCode_ := 200
  statusMessage_ := bytes "OK"
  closeConnection_ := false
  body_ := [137, 80, 78, 71, 13, 10, 26, 10, 0, 0, 0, 13]

theorem plain_favicon : favicon.Plain where
  code := by decide
  message := by decide +kernel
  line := by decide +kernel
  name := by decide +kernel
  body := by decide

theorem readBack_iff_favicon : favicon.ReadBack ↔ 0 ∉ favicon.body_ := readBack_iff plain_favicon

/-- Twelve bytes are announced, and eight are sent. -/
theorem favicon_cut_short : favicon.Plain ∧ ¬ favicon.ReadBack := by
  refine ⟨plain_favicon, fun hback => ?_⟩
  obtain ⟨appended, m, hreadable, hread, -⟩ := hback (.new kInitialSize)
  rw [readable_appendToBuffer plain_favicon, Buffer.readable_new, List.nil_append,
    List.nil_append] at hreadable
  have hcode : favicon.statusCode_ = (200 : Nat) := rfl
  have hopen : favicon.closeConnection_ = false := rfl
  have hshort : ¬ favicon.body_.length ≤ (cstr favicon.body_).length := by decide
  rw [← hreadable, readMessage_text plain_favicon hcode, hopen, if_neg hshort] at hread
  cases hread

end HttpResponse

end Http
end Myoj
