import Myoj.Http.Delivery

/-!
# Rendering — requests as text, and what the parser makes of them

* `processRequestLine_new` — on a new context a line is accepted precisely when it has the grammar of
  `RequestLine`, and what the line says is then in the request;
* `queryString` — parameters as a query; `params_of_query` is what is stored for them: the question
  mark is part of the first key;
* `Message` — a request as text; `parseRequest_text` reads it back.
-/

namespace Myoj
namespace Http

open Net

/-! ## Maps from lists of pairs -/

/-- The last value given for a key. -/
def lastValue (pairs : List (Bytes × Bytes)) (k : Bytes) : Option Bytes := pairs.reverse.lookup k

theorem lastValue_cons (p : Bytes × Bytes) (pairs : List (Bytes × Bytes)) (k : Bytes) :
    lastValue (p :: pairs) k = (lastValue pairs k).or (if k = p.1 then some p.2 else none) := by
  rw [lastValue, List.reverse_cons, List.lookup_append, lastValue, List.lookup_cons]
  by_cases hk : k = p.1
  · simp [hk]
  · simp [beq_eq_false_iff_ne.2 hk, hk]

theorem lookup_foldl_insert (pairs : List (Bytes × Bytes)) (m : StringMap) (k : Bytes) :
    (pairs.foldl (fun m p => m.insert p.1 p.2) m).lookup k =
      (lastValue pairs k).or (m.lookup k) := by
  induction pairs generalizing m with
  | nil =>
      rfl
  | cons p pairs ih =>
      rw [List.foldl_cons, ih, lastValue_cons, Option.or_assoc]
      by_cases hk : k = p.1
      · subst hk
        simp [Finmap.lookup_insert]
      · simp [Finmap.lookup_insert_of_ne _ hk, hk]

theorem lastValue_isSome_iff {pairs : List (Bytes × Bytes)} {k : Bytes} :
    (lastValue pairs k).isSome = true ↔ k ∈ pairs.map Prod.fst := by
  induction pairs with
  | nil =>
      simp [lastValue]
  | cons p pairs ih =>
      rw [lastValue_cons, Option.isSome_or, Bool.or_eq_true, ih, List.map_cons, List.mem_cons, or_comm]
      by_cases hk : k = p.1
      · simp [hk]
      · simp [hk]

/-! ## Request lines -/

theorem pathOf_eq (target : Bytes) : pathOf target = target.takeWhile (· ≠ 63) := by
  unfold pathOf
  cases hcut : cutAt 63 target with
  | none =>
      rw [takeWhile_ne_of_not_mem (cutAt_eq_none_iff.1 hcut)]
      rfl
  | some p =>
      obtain ⟨rfl, hpath⟩ := cutAt_eq_some_iff.1 hcut
      rw [takeWhile_ne_append hpath]
      rfl

theorem queryOf_eq (target : Bytes) : (queryOf target).getD [] = target.dropWhile (· ≠ 63) := by
  unfold queryOf
  cases hcut : cutAt 63 target with
  | none =>
      rw [List.dropWhile_eq_nil_iff.2 (forall_ne_of_not_mem (cutAt_eq_none_iff.1 hcut))]
      rfl
  | some p =>
      obtain ⟨rfl, hpath⟩ := cutAt_eq_some_iff.1 hcut
      rw [dropWhile_ne_append hpath]
      rfl

theorem fill_new (l : RequestLine) :
    l.fill .new =
      { HttpRequest.new with
        method_ := l.method
        version_ := l.version
        path_ := pathOf l.target
        query_ := (queryOf l.target).getD []
        params_ := (queryOf l.target).elim ∅ fun q => HttpRequest.storeParams q ∅ } := by
  rw [RequestLine.fill, HttpRequest.setTarget_eq]
  rfl

theorem processRequestLine_new_text (l : RequestLine) :
    HttpContext.new.request_.processRequestLine l.text = (true, l.fill .new) :=
  HttpRequest.processRequestLine_text l rfl

/-- **The grammar of request lines.**  A new context accepts precisely the lines `m SP t SP HTTP/1.d`
with a known method, a target without a space and a known digit.  Method and version are then those of
the line, the path is the target up to its first question mark, the query the rest of it. -/
theorem processRequestLine_new (line : Bytes) :
    ((HttpContext.new.request_.processRequestLine line).1 = true ↔ ∃ l : RequestLine, l.text = line) ∧
    ∀ l : RequestLine, l.text = line →
      let request := (HttpContext.new.request_.processRequestLine line).2
      request.method_ = l.method ∧ request.version_ = l.version ∧
        request.path_ = l.target.takeWhile (· ≠ 63) ∧ request.query_ = l.target.dropWhile (· ≠ 63) := by
  refine ⟨⟨fun haccepted => ?_, ?_⟩, ?_⟩
  · obtain ⟨-, l, htext, -⟩ := HttpRequest.exists_of_processRequestLine (Prod.ext haccepted rfl)
    exact ⟨l, htext⟩
  · rintro ⟨l, rfl⟩
    rw [processRequestLine_new_text]
  · rintro l rfl
    rw [processRequestLine_new_text, fill_new, ← pathOf_eq, ← queryOf_eq]
    exact ⟨rfl, rfl, rfl, rfl⟩

/-! ## Queries -/

/-- `k1=v1&…&kn=vn`. -/
def queryString (params : List (Bytes × Bytes)) : Bytes :=
  [38].intercalate (params.map fun p => p.1 ++ 61 :: p.2)

/-- A key as a query can carry it. -/
def CleanKey (k : Bytes) : Prop := k ≠ [] ∧ ∀ b ∈ k, b ∉ bytes "=&? \r\n"

/-- A value as a query can carry it. -/
def CleanValue (v : Bytes) : Prop := v ≠ [] ∧ ∀ b ∈ v, b ∉ bytes "& \r\n"

/-- A parameter with a key and a value is stored under the key. -/
theorem storeParam_eq (m : StringMap) {k v : Bytes} (hk : 61 ∉ k) (hv : v ≠ [] ∧ 10 ∉ v) :
    HttpRequest.storeParam m (k ++ 61 :: v) = m.insert k v := by
  have hkey : getline 61 (k ++ 61 :: v) = some (k, v) := by
    rw [getline, if_neg (by simp), cutAt_append hk]
    rfl
  have hvalue : getline 10 v = some (v, []) := by
    rw [getline, if_neg hv.1, cutAt_of_not_mem hv.2]
    rfl
  simp only [HttpRequest.storeParam, hkey, hvalue]

/-- What the loop of `setQuery` stores for parameters none of which has a delimiter inside. -/
theorem storeParams_queryString {params : List (Bytes × Bytes)} (m : StringMap)
    (h : ∀ p ∈ params, (61 ∉ p.1 ∧ 38 ∉ p.1) ∧ p.2 ≠ [] ∧ 38 ∉ p.2 ∧ 10 ∉ p.2) :
    HttpRequest.storeParams (queryString params) m = params.foldl (fun m p => m.insert p.1 p.2) m := by
  have hpieces : getlines 38 (queryString params) = params.map fun p => p.1 ++ 61 :: p.2 := by
    refine getlines_intercalate fun piece hpiece => ?_
    obtain ⟨p, hp, rfl⟩ := List.mem_map.1 hpiece
    obtain ⟨⟨-, hkey⟩, -, hvalue, -⟩ := h p hp
    simp [hkey, hvalue]
  rw [HttpRequest.storeParams, hpieces, List.foldl_map]
  clear hpieces
  induction params generalizing m with
  | nil =>
      rfl
  | cons p params ih =>
      obtain ⟨⟨hkey, -⟩, hne, -, hvalue⟩ := h p (List.mem_cons_self)
      rw [List.foldl_cons, List.foldl_cons, storeParam_eq m hkey ⟨hne, hvalue⟩]
      exact ih _ fun p' hp' => h p' (List.mem_cons_of_mem _ hp')

/-- The parameters of a target: `setQuery` is called with the question mark, which becomes part of the
first key. -/
theorem params_of_query {path : Bytes} (hpath : 63 ∉ path) {p : Bytes × Bytes}
    {params : List (Bytes × Bytes)} (h : ∀ q ∈ p :: params, CleanKey q.1 ∧ CleanValue q.2)
    {l : RequestLine} (htarget : l.target = path ++ 63 :: queryString (p :: params)) :
    (HttpContext.new.request_.processRequestLine l.text).2.params_ =
      ((63 :: p.1, p.2) :: params).foldl (fun m q => m.insert q.1 q.2) ∅ := by
  have hclean : ∀ q ∈ p :: params, (61 ∉ q.1 ∧ 38 ∉ q.1) ∧ q.2 ≠ [] ∧ 38 ∉ q.2 ∧ 10 ∉ q.2 := by
    intro q hq
    obtain ⟨⟨-, hkey⟩, hne, hvalue⟩ := h q hq
    exact ⟨⟨fun hmem => hkey _ hmem (by decide), fun hmem => hkey _ hmem (by decide)⟩, hne,
      fun hmem => hvalue _ hmem (by decide), fun hmem => hvalue _ hmem (by decide)⟩
  have hmark : (63 : UInt8) :: queryString (p :: params) = queryString ((63 :: p.1, p.2) :: params) := by
    cases params <;> simp [queryString, List.intercalate_cons_cons]
  rw [processRequestLine_new_text, fill_new, queryOf, htarget, cutAt_append hpath]
  simp only [Option.map_some, Option.elim_some]
  rw [hmark, storeParams_queryString]
  intro q hq
  rcases List.mem_cons.1 hq with rfl | hrest
  · obtain ⟨⟨heq, hamp⟩, hvalue⟩ := hclean p (List.mem_cons_self)
    exact ⟨⟨by simp [heq], by simp [hamp]⟩, hvalue⟩
  · exact hclean q (List.mem_cons_of_mem _ hrest)

namespace HttpRequest

/-- The parameters of a list, and no others, each with the last value given for it. -/
def Decoded (r : HttpRequest) (params : List (Bytes × Bytes)) : Prop :=
  (∀ k, r.hasParam k = true ↔ k ∈ params.map Prod.fst) ∧
    ∀ k v, lastValue params k = some v → r.getParam k = v

end HttpRequest

/-- **Query parameters.**  Whatever the parameters are, they are not those that the request has: it has
one under a key that begins with the question mark. -/
theorem query_not_decoded {path : Bytes} (hpath : ∀ b ∈ path, b ∉ bytes " ?\r\n")
    {params : List (Bytes × Bytes)} (hne : params ≠ [])
    (h : ∀ q ∈ params, CleanKey q.1 ∧ CleanValue q.2) {l : RequestLine}
    (htarget : l.target = path ++ 63 :: queryString params) :
    ¬ (HttpContext.new.request_.processRequestLine l.text).2.Decoded params := by
  rintro ⟨hkeys, -⟩
  obtain ⟨p, params, rfl⟩ := List.exists_cons_of_ne_nil hne
  have hmark : 63 ∉ path := fun hmem => hpath _ hmem (by decide)
  have hstored : (HttpContext.new.request_.processRequestLine l.text).2.hasParam (63 :: p.1) = true := by
    rw [HttpRequest.hasParam, params_of_query hmark h htarget, lookup_foldl_insert, Option.isSome_or,
      lastValue_isSome_iff.2 (List.mem_cons_self)]
    rfl
  -- no key of the list has a question mark in it
  obtain ⟨q, hq, hkey⟩ := List.mem_map.1 ((hkeys _).1 hstored)
  have hin : (63 : UInt8) ∈ q.1 := by simp [hkey]
  exact (h q hq).1.2 _ hin (by decide)

/-- `GET /?a=1 HTTP/1.1`. -/
def askOne : RequestLine :=
  ⟨bytes "GET", .kGet, bytes "/?a=1", .kHttp11, 49, by decide, by decide, by decide⟩

theorem query_not_decoded_one :
    ¬ (HttpContext.new.request_.processRequestLine askOne.text).2.Decoded [(bytes "a", bytes "1")] :=
  query_not_decoded (by decide +kernel) (by decide)
    (by simp only [CleanKey, CleanValue]; decide +kernel)
    (show askOne.target = bytes "/" ++ 63 :: queryString [(bytes "a", bytes "1")] by decide)

/-- Asked for `a`, the request has no parameter of that name. -/
theorem first_param_lost :
    ¬ (HttpContext.new.request_.processRequestLine (bytes "GET /?a=1 HTTP/1.1")).2.Decoded
      [(bytes "a", bytes "1")] := by
  rintro ⟨hkeys, -⟩
  have hlost : (HttpContext.new.request_.processRequestLine (bytes "GET /?a=1 HTTP/1.1")).2.hasParam
      (bytes "a") = false := by decide +kernel
  have hasked := (hkeys (bytes "a")).2 (by decide)
  rw [hlost] at hasked
  cases hasked

/-! ## Requests -/

/-- A header as text can carry it: no colon and no CR in the name, no CR in the value, and no blanks
around it. -/
structure CleanHeader (h : Bytes × Bytes) : Prop where
  name : 58 ∉ h.1 ∧ 13 ∉ h.1
  value : 13 ∉ h.2
  first : ∀ b ∈ h.2.head?, HttpRequest.isspace b = false
  last : ∀ b ∈ h.2.getLast?, b ≠ 32 ∧ b ≠ 9

/-- A request as a client writes it. -/
structure Message where
  line : RequestLine
  headers : List (Bytes × Bytes)
  body : Bytes
  path_clean : 63 ∉ line.target ∧ 13 ∉ line.target
  headers_clean : ∀ h ∈ headers, CleanHeader h

namespace Message

/-- Name, colon, space and value for each header. -/
def headerLines (headers : List (Bytes × Bytes)) : Bytes :=
  headers.flatMap fun h => h.1 ++ bytes ": " ++ h.2 ++ bytes "\r\n"

def text (m : Message) : Bytes :=
  m.line.text ++ bytes "\r\n" ++ headerLines m.headers ++ bytes "\r\n" ++ m.body

/-- What `addHeader` keeps of a space and a value without blanks around it. -/
theorem headerValue_of_clean {h : Bytes × Bytes} (hclean : CleanHeader h) :
    HttpRequest.headerValue (32 :: h.2) = h.2 := by
  have hspace : HttpRequest.isspace 32 = true := by decide
  have hfirst : h.2.dropWhile HttpRequest.isspace = h.2 := by
    cases hv : h.2 with
    | nil =>
        rfl
    | cons b v =>
        have hb := hclean.first b (by rw [hv]; rfl)
        rw [List.dropWhile_cons_of_neg (by simp [hb])]
  rw [HttpRequest.headerValue, List.dropWhile_cons_of_pos hspace, hfirst, List.rdropWhile_eq_self_iff]
  intro hne
  have hlast := hclean.last _ (List.getLast?_eq_some_getLast hne)
  simpa using hlast

theorem cr_not_mem_text {l : RequestLine} (h : 13 ∉ l.target) : 13 ∉ l.text := by
  have hname : ∀ p ∈ kStringToHttpMethod, 13 ∉ p.1 := by decide
  have hdigit : ∀ p ∈ [(Version.kHttp10, (48 : UInt8)), (.kHttp11, 49)], 13 ≠ p.2 := by decide
  have hhttp : 13 ∉ bytes "HTTP/1." := by decide
  simp [RequestLine.text, hname _ l.known, h, hhttp, hdigit _ l.digit_version]

/-- The request a message stands for, but for the time it is received at. -/
def request (m : Message) : HttpRequest :=
  { HttpRequest.new with
    method_ := m.line.method
    version_ := m.line.version
    path_ := m.line.target
    headers_ := m.headers.foldl (fun headers h => headers.insert h.1 h.2) ∅
    body_ := m.body }

theorem parse_text (m : Message) :
    HttpContext.new.parse m.text = .returned true ⟨.kGotAll, m.request⟩ [] := by
  have hraw : ∀ x ∈ m.headers.map fun h => (h.1, 32 :: h.2), 58 ∉ x.1 ∧ 13 ∉ x.1 ∧ 13 ∉ x.2 := by
    intro x hx
    obtain ⟨h, hmem, rfl⟩ := List.mem_map.1 hx
    have hclean := m.headers_clean h hmem
    simp [hclean.name, hclean.value]
  -- the header lines are those of a raw request with a space before each value
  have hlines : headerLines m.headers = RawRequest.headerLines (m.headers.map fun h => (h.1, 32 :: h.2)) := by
    rw [headerLines, RawRequest.headerLines, List.flatMap_map]
    refine List.flatMap_congr fun h _ => ?_
    have hsep : bytes ": " = [58, 32] := by decide
    have hcrlf : bytes "\r\n" = RawRequest.crlf := by decide
    simp [hsep, hcrlf]
  have hsplit : m.text = m.line.text ++ 13 :: 10 ::
      (RawRequest.headerLines (m.headers.map fun h => (h.1, 32 :: h.2)) ++ RawRequest.crlf ++ m.body) := by
    have hcrlf : bytes "\r\n" = [13, 10] := by decide
    simp [text, hlines, hcrlf, RawRequest.crlf]
  have hvalues : (m.headers.map fun h => (h.1, 32 :: h.2)).foldl
      (fun headers x => headers.insert x.1 (HttpRequest.headerValue x.2)) (∅ : StringMap) =
        m.headers.foldl (fun headers h => headers.insert h.1 h.2) ∅ := by
    rw [List.foldl_map]
    refine List.foldl_ext _ _ _ fun headers h hmem => ?_
    rw [headerValue_of_clean (m.headers_clean h hmem)]
  have hpath : cutAt 63 m.line.target = none := cutAt_of_not_mem m.path_clean.1
  rw [hsplit, HttpContext.parse_requestLine rfl (cr_not_mem_text m.path_clean.2),
    processRequestLine_new_text]
  refine (RawRequest.parse_headerLines hraw _ m.body).trans ?_
  rw [RawRequest.foldl_addHeader, fill_new, pathOf, queryOf, hpath]
  simp only [HttpRequest.setBody]
  rw [show HttpRequest.new.headers_ = ∅ from rfl, hvalues]
  rfl

/-- **Parsing undoes rendering.**  The text of a message in the buffer of a new context is read as a
complete request, which has what the message has and nothing else, and nothing is left in the buffer. -/
theorem parseRequest_text (m : Message) (buf : Buffer) (receiveTime : Timestamp)
    (hbuf : buf.readable = m.text) :
    ∃ c buf', HttpContext.new.parseRequest buf receiveTime = .returned true c buf' ∧
      c.state_ = .kGotAll ∧ buf'.readable = [] ∧
      c.request_.method_ = m.line.method ∧ c.request_.version_ = m.line.version ∧
      c.request_.path_ = m.line.target ∧ c.request_.body_ = m.body ∧
      c.request_.query_ = [] ∧ c.request_.params_ = ∅ ∧
      ∀ k, c.request_.headers_.lookup k = lastValue m.headers k := by
  have hview := HttpContext.parseRequest_view .new buf receiveTime
  rw [hbuf] at hview
  obtain ⟨c, buf', hparse, hc, hrest⟩ := HttpContext.returned_of_view (hview.trans m.parse_text)
  have hstate : c.untimed.state_ = .kGotAll := by rw [hc]
  have hrequest : c.untimed.request_ = m.request := by rw [hc]
  refine ⟨c, buf', hparse, hstate, hrest, congrArg HttpRequest.method_ hrequest,
    congrArg HttpRequest.version_ hrequest, congrArg HttpRequest.path_ hrequest,
    congrArg HttpRequest.body_ hrequest, congrArg HttpRequest.query_ hrequest,
    congrArg HttpRequest.params_ hrequest, fun k => ?_⟩
  have hheaders : c.untimed.request_.headers_ = m.request.headers_ :=
    congrArg HttpRequest.headers_ hrequest
  change c.untimed.request_.headers_.lookup k = _
  rw [hheaders, request, lookup_foldl_insert, Finmap.lookup_empty, Option.or_none]

/-- `POST /a HTTP/1.1` with a header given twice, and a body. -/
def posted : Message where
  line := ⟨bytes "POST", .kPost, bytes "/a", .kHttp11, 49, by decide, by decide, by decide⟩
  headers := [(bytes "K", bytes "1"), (bytes "K", bytes "2 3")]
  body := bytes "x\r\ny"
  path_clean := by decide
  headers_clean := by
    have hfirst : CleanHeader (bytes "K", bytes "1") := ⟨by decide, by decide, by decide +kernel, by decide +kernel⟩
    have hsecond : CleanHeader (bytes "K", bytes "2 3") :=
      ⟨by decide, by decide, by decide +kernel, by decide +kernel⟩
    simp [hfirst, hsecond]

theorem parseRequest_text_posted :
    ∃ c buf', HttpContext.new.parseRequest ((Buffer.new kInitialSize).append posted.text) 0 =
        .returned true c buf' ∧
      c.state_ = .kGotAll ∧ buf'.readable = [] ∧
      c.request_.method_ = .kPost ∧ c.request_.version_ = .kHttp11 ∧
      c.request_.path_ = bytes "/a" ∧ c.request_.body_ = bytes "x\r\ny" ∧
      c.request_.query_ = [] ∧ c.request_.params_ = ∅ ∧
      ∀ k, c.request_.headers_.lookup k = lastValue posted.headers k :=
  parseRequest_text posted _ 0 (by rw [Buffer.readable_append, Buffer.readable_new, List.nil_append])

end Message

end Http
end Myoj
