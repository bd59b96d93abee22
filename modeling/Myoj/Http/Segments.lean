import Myoj.Http.Delivery

/-!
# Segments — what the server makes of cuts and of pipelining

The two results about how the bytes of well-formed requests reach `onMessage`:

* `same_requests` — one request in chunks: the requests handed out do not depend on the cuts, as long
  as the cuts stay inside the header block and off the CR LF pairs;
* `one_request_per_segment` — several requests in one segment: the first one takes everything behind
  its header block as its body.
-/

namespace Myoj
namespace Http
namespace Session

variable (httpCallback_ : HttpRequest → HttpResponse → HttpResponse)

/-- The parts of a request the callback works with. -/
structure Content where
  method : Method
  path : Bytes
  params : StringMap
  headers : StringMap
  body : Bytes
  deriving DecidableEq

def content (q : HttpRequest) : Content := ⟨q.method_, q.path_, q.params_, q.headers_, q.body_⟩

/-- What the callback has been given so far. -/
def handled (s : Session) : List Content := s.requests.map content

theorem handled_eq (s : Session) : s.handled = s.reader.requests.map content := by
  simp [handled, reader, content, HttpRequest.setReceiveTime]

theorem reader_foldl (s : Session) (chunks : List Chunk) :
    (chunks.foldl (deliver httpCallback_) s).reader =
      (chunks.map Chunk.data).foldl Reader.deliver s.reader := by
  induction chunks generalizing s with
  | nil =>
      rfl
  | cons chunk chunks ih =>
      simp only [List.foldl_cons, List.map_cons, ih, reader_deliver]

/-- A request whose chunks are cut off the CR LF pairs and inside the header block is handed out once,
with its own body, if the server knows its method and version, and not at all otherwise. -/
theorem handled_of_undisturbed {r : RawRequest} (h : r.WellFormed) {chunks : List Chunk}
    (hrender : (chunks.map Chunk.data).flatten = r.render)
    (hcuts : Reader.Undisturbed r (chunks.map Chunk.data)) :
    (∀ method version, r.Accepted method version →
      (chunks.foldl (deliver httpCallback_) new).handled =
        [content (r.received method version r.body)]) ∧
    ((∀ method version, ¬ r.Accepted method version) →
      (chunks.foldl (deliver httpCallback_) new).handled = []) := by
  have hne : chunks.map Chunk.data ≠ [] := by
    intro hnil
    rw [hnil] at hrender
    simp [RawRequest.render, RawRequest.head, RawRequest.requestLine] at hrender
  rw [handled_eq, reader_foldl, reader_new]
  constructor
  · intro method version haccepted
    rw [Reader.requests_of_waiting h haccepted Reader.waiting_new (by simpa using hrender) hne
      (by simpa [Reader.Undisturbed] using hcuts)]
    rfl
  · intro hnot
    rw [Reader.requests_of_unaccepted h hnot rfl rfl rfl (by simpa [Reader.new] using hrender)]
    rfl

/-- **Cuts inside the header block do not matter.** -/
theorem same_requests {r : RawRequest} (h : r.WellFormed) {cs ds : List Chunk}
    (hcs : (cs.map Chunk.data).flatten = r.render) (hds : (ds.map Chunk.data).flatten = r.render)
    (ucs : Reader.Undisturbed r (cs.map Chunk.data))
    (uds : Reader.Undisturbed r (ds.map Chunk.data)) :
    (cs.foldl (deliver httpCallback_) new).handled =
      (ds.foldl (deliver httpCallback_) new).handled := by
  rcases handled_of_undisturbed httpCallback_ h hcs ucs with ⟨hc, hcnot⟩
  rcases handled_of_undisturbed httpCallback_ h hds uds with ⟨hd, hdnot⟩
  by_cases hknown : ∃ method version, r.Accepted method version
  · rcases hknown with ⟨method, version, haccepted⟩
    rw [hc _ _ haccepted, hd _ _ haccepted]
  · have hnot : ∀ method version, ¬ r.Accepted method version :=
      fun method version haccepted => hknown ⟨method, version, haccepted⟩
    rw [hcnot hnot, hdnot hnot]

/-- A request with a two-byte body. -/
def upload : RawRequest :=
  ⟨bytes "POST", bytes "/", 49, [(bytes "Content-Length", bytes " 2")], bytes "ab"⟩

theorem upload_wellFormed : upload.WellFormed where
  method_visible := by decide +kernel
  target_visible := by decide +kernel
  minor_digit := by decide
  name_visible := by decide +kernel
  value_one_line := by decide
  content_length := by decide +kernel
  body_announced := by decide

/-- Cutting inside the request line changes nothing. -/
theorem same_requests_upload :
    ([⟨upload.render, 0⟩].foldl (deliver fun _ response => response) new).handled =
      ([⟨bytes "POST / HT", 0⟩, ⟨upload.render.drop 9, 1⟩].foldl
        (deliver fun _ response => response) new).handled :=
  same_requests _ upload_wellFormed (by decide) (by decide) (by decide) (by decide)

/-- Cutting inside the body does: the callback is given the request with half of its body. -/
theorem cut_body_differs :
    upload.WellFormed ∧
      ([⟨upload.render, 0⟩].foldl (deliver fun _ response => response) new).handled ≠
        ([⟨upload.render.take 38, 0⟩, ⟨upload.render.drop 38, 1⟩].foldl
          (deliver fun _ response => response) new).handled := by
  refine ⟨upload_wellFormed, ?_⟩
  decide +kernel

/-! ## Several requests in one segment -/

/-- **One request per segment.** Of well-formed requests delivered together the callback is given the
first one, once; its body is its own followed by all the requests behind it, and nothing stays in the
input buffer. -/
theorem one_request_per_segment {r : RawRequest} {rs : List RawRequest}
    (h : ∀ q ∈ r :: rs, q.WellFormed) {method : Method} {version : Version}
    (haccepted : r.Accepted method version) (t : Timestamp) :
    let s := new.deliver httpCallback_ ⟨(r :: rs).flatMap RawRequest.render, t⟩
    s.handled = [content (r.received method version (r.body ++ rs.flatMap RawRequest.render))] ∧
      s.inputBuffer_.readable = [] ∧ s.status = .running := by
  intro s
  have hall : (r :: rs).flatMap RawRequest.render =
      r.head ++ (r.body ++ rs.flatMap RawRequest.render) := by
    simp [RawRequest.render]
  have hparse := RawRequest.parse_head (h r (by simp)) haccepted
    (r.body ++ rs.flatMap RawRequest.render)
  rw [← hall] at hparse
  have hs : s.reader = _ := reader_deliver httpCallback_ new _
  rw [reader_new, Reader.deliver_of_complete rfl hparse] at hs
  clear_value s
  refine ⟨?_, congrArg Reader.pending hs, congrArg Reader.status hs⟩
  rw [handled_eq, hs]
  rfl

/-- A request without a body. -/
def ping : RawRequest := ⟨bytes "GET", bytes "/", 49, [], []⟩

theorem ping_wellFormed : ping.WellFormed where
  method_visible := by decide +kernel
  target_visible := by decide +kernel
  minor_digit := by decide
  name_visible := by decide +kernel
  value_one_line := by decide
  content_length := by decide
  body_announced := by decide

theorem one_request_per_segment_ping :
    let s := new.deliver (fun _ response => response)
      ⟨[ping, upload].flatMap RawRequest.render, 0⟩
    s.handled = [content (ping.received .kGet .kHttp11 upload.render)] ∧
      s.inputBuffer_.readable = [] ∧ s.status = .running :=
  one_request_per_segment _
    (show ∀ q ∈ ping :: [upload], q.WellFormed by simp [ping_wellFormed, upload_wellFormed]) ⟨by decide, by decide⟩ 0

/-- Two pipelined requests, one call of the callback. -/
theorem pipelined_request_lost :
    ping.WellFormed ∧ upload.WellFormed ∧
      (new.deliver (fun _ response => response)
        ⟨[ping, upload].flatMap RawRequest.render, 0⟩).handled.length = 1 := by
  refine ⟨ping_wellFormed, upload_wellFormed, ?_⟩
  decide +kernel

end Session
end Http
end Myoj
