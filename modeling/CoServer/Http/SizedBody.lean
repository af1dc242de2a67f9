import CoServer.Http.HeadReading

/-!
Bodies of a declared length. The body is resized by the first call, the calls fill
it from the front, and the call that fills it completes, whatever the sizes of the
chunks; no length is empty and too large a length is refused before anything is
stored.
-/

namespace CoServer.Http.Request

def bodyCalls : List Bytes → Request → Option (List Reply × Request)
  | [], req => some ([], req)
  | data :: rest, req =>
      (req.consumeBodySome data).bind fun (reply, next) =>
        (bodyCalls rest next).map fun (replies, last) => (reply :: replies, last)

def sizedBody (req : Request) (length : Nat) : Bytes :=
  if req.body.length ≠ length then resizeTo req.body length else req.body

theorem sizedBody_length (req : Request) (length : Nat) : (req.sizedBody length).length = length := by
  rw [sizedBody]
  split
  · exact resizeTo_length _ _
  · rename_i same
    exact not_not.mp same

/-- The replies to chunks after so many bytes have been offered: each call takes what
is missing of its chunk, and the one that brings the last of it completes. -/
def sizedReplies (length : Nat) : Nat → List Bytes → List Reply
  | _, [] => []
  | offered, data :: rest =>
      (none, decide (length ≤ offered + data.length), min data.length (length - offered)) ::
        sizedReplies length (offered + data.length) rest

structure BodyOffered (length : Nat) (offered : Bytes) (req : Request) : Prop where
  declared : req.contentLength = some length
  allowed : length ≤ req.maxBodySize
  index : req.bodyIdx = min offered.length length
  held : (req.sizedBody length).take (min offered.length length) = offered.take length
  sized : offered ≠ [] → req.body.length = length

theorem BodyOffered.call {length : Nat} {offered : Bytes} {req : Request}
    (before : BodyOffered length offered req)
    (some_ : 0 < length) (data : Bytes) : ∃ req',
      req.consumeBodySome data = some ((none, decide (length ≤ offered.length + data.length),
        min data.length (length - offered.length)), req') ∧
      BodyOffered length (offered ++ data) req' := by
  obtain ⟨declared, allowed, index, held, _⟩ := before
  obtain ⟨size, rfl⟩ := Nat.exists_eq_add_one_of_ne_zero (Nat.ne_of_gt some_)
  have missing : size + 1 - min offered.length (size + 1) = size + 1 - offered.length := by omega
  have cut : data.take (min data.length (size + 1 - offered.length)) =
      data.take (size + 1 - offered.length) := by
    rw [List.take_eq_take_iff]
    omega
  have count : (data.take (size + 1 - offered.length)).length =
      min data.length (size + 1 - offered.length) := by
    rw [List.length_take, Nat.min_comm]
  have inside : min offered.length (size + 1) ≤ (req.sizedBody (size + 1)).length := by
    rw [sizedBody_length]
    exact Nat.min_le_right _ _
  have whole : (Splice.store (req.sizedBody (size + 1)) (min offered.length (size + 1))
      (data.take (size + 1 - offered.length))).length = size + 1 := by
    rw [Splice.store_length, sizedBody_length]
    rw [sizedBody_length, count]
    omega
  have stored := Splice.store_take_end (data.take (size + 1 - offered.length)) inside
  rw [held, count] at stored
  have fits : ¬ size + 1 > req.maxBodySize := by omega
  have complete : (min offered.length (size + 1) + min data.length (size + 1 - offered.length) ≥ size + 1) ↔
      size + 1 ≤ offered.length + data.length := by omega
  have total : min offered.length (size + 1) + min data.length (size + 1 - offered.length) =
      min (offered ++ data).length (size + 1) := by
    rw [List.length_append]
    omega
  refine ⟨{ req with
    body := Splice.store (req.sizedBody (size + 1)) (min offered.length (size + 1))
      (data.take (size + 1 - offered.length))
    bodyIdx := min offered.length (size + 1) + min data.length (size + 1 - offered.length) }, ?_, ?_⟩
  · simp only [consumeBodySome, declared, consumeSizedSome, fits, ↓reduceIte, index, missing, cut,
      complete, sizedBody]
  · refine ⟨declared, allowed, total, ?_, fun _ => whole⟩
    rw [sizedBody, if_neg (not_not.mpr whole), ← total, stored, List.take_append]

theorem BodyOffered.calls {length : Nat} {offered : Bytes} {req : Request}
    (before : BodyOffered length offered req) (some_ : 0 < length) (chunks : List Bytes) :
    ∃ last, bodyCalls chunks req = some (sizedReplies length offered.length chunks, last) ∧
      BodyOffered length (offered ++ chunks.flatten) last := by
  induction chunks generalizing offered req with
  | nil => exact ⟨req, rfl, by simpa using before⟩
  | cons data rest ih =>
      obtain ⟨next, reply, after⟩ := before.call some_ data
      obtain ⟨last, replies, finally_⟩ := ih after
      refine ⟨last, ?_, by simpa using finally_⟩
      rw [List.length_append] at replies
      simp only [bodyCalls, reply, Option.bind_some, replies, Option.map_some, sizedReplies]

theorem BodyOffered.body {length : Nat} {offered : Bytes} {req : Request}
    (after : BodyOffered length offered req)
    (some_ : 0 < length) (whole : length ≤ offered.length) : req.body = offered.take length := by
  have size : req.body.length = length := by
    refine after.sized ?_
    rintro rfl
    exact Nat.not_le.mpr some_ whole
  have held := after.held
  rw [Nat.min_eq_right whole, sizedBody, if_neg (not_not.mpr size), ← size, List.take_length, size] at held
  exact held

structure Bodiless (req : Request) : Prop where
  body : req.body = []
  index : req.bodyIdx = 0
  limit : req.maxBodySize = 1024 * 1024
  chunked : req.contentLength ≠ none → req.chunked = false

theorem consumeHeaderSome_bodiless {req req' : Request} {data : Bytes} {complete : Bool} {count : Nat}
    (reply : req.consumeHeaderSome data = some ((none, complete, count), req'))
    (before : Bodiless req) (quiet : req.chunked = false) :
    Bodiless req' ∧ (complete = false → req'.chunked = false) := by
  obtain ⟨_, ⟨rfl, _, accepted⟩ | ⟨rfl, _, _, rfl⟩⟩ := consumeHeaderSome_ok reply
  · obtain ⟨_, _, parsed, length, _, _, rfl⟩ := deserialize_final accepted
    refine ⟨⟨before.body, before.index, before.limit, ?_⟩, fun no => by cases no⟩
    intro declared
    obtain ⟨size, rfl⟩ := Option.ne_none_iff_exists'.mp declared
    have off : ((req.scanData data).1.copyHeader data count).chunked = false := quiet
    simp only [withTarget, chunkedOf, off, Option.isNone_some, Bool.false_and, Bool.or_false]
  · exact ⟨⟨before.body, before.index, before.limit, fun _ => quiet⟩, fun _ => quiet⟩

theorem accepted_bodiless {headerBuffer input : Bytes} {sizes : List Nat} {count : Nat} {req : Request}
    (accepted : feed MessageLike.consumeHeaderSome sizes input (ofBuffer headerBuffer) =
      some (count, req)) : Bodiless req := by
  have keep : ∀ (msg : Request) chunk count msg', (Bodiless msg ∧ msg.chunked = false) →
      msg.consumeHeaderSome chunk = some ((none, false, count), msg') →
        Bodiless msg' ∧ msg'.chunked = false := by
    rintro msg chunk count msg' ⟨before, quiet⟩ reply
    obtain ⟨after, still⟩ := consumeHeaderSome_bodiless reply before quiet
    exact ⟨after, still rfl⟩
  have fresh : Bodiless (ofBuffer headerBuffer) ∧ (ofBuffer headerBuffer).chunked = false :=
    ⟨⟨rfl, rfl, rfl, fun _ => rfl⟩, rfl⟩
  obtain ⟨before, chunk, taken, ⟨start, quiet⟩, reply⟩ := feed_last keep fresh accepted
  exact (consumeHeaderSome_bodiless reply start quiet).1

/-- The calls for a body of the length, for every sequence of chunks. A copy starts at
`bodyIdx_` and is cut to what is missing from there. -/
structure SizedExact (length : Nat) (chunks : List Bytes) (req : Request) : Prop where
  replies : 0 < length → length ≤ req.maxBodySize → ∃ last,
    bodyCalls chunks req = some (sizedReplies length 0 chunks, last) ∧
      (length ≤ chunks.flatten.length → last.body = chunks.flatten.take length)
  inside : 0 < length → length ≤ req.maxBodySize → ∀ front data back replies before,
    chunks = front ++ data :: back → bodyCalls front req = some (replies, before) →
      before.bodyIdx ≤ length ∧
        before.bodyIdx + min data.length (length - before.bodyIdx) ≤ (before.sizedBody length).length
  empty : length = 0 → ∀ data, req.consumeBodySome data = some ((none, true, 0), req) ∧ req.body = []
  excessive : req.maxBodySize < length → ∀ data,
    req.consumeBodySome data = some ((some .invalidMessage, true, 0), req)

theorem sized_body_exact {headerBuffer input : Bytes} {sizes : List Nat} {count length : Nat}
    {req : Request} (accepted : feed MessageLike.consumeHeaderSome sizes input (ofBuffer headerBuffer) =
      some (count, req))
    (declared : req.contentLength = some length) (chunks : List Bytes) :
    SizedExact length chunks req := by
  obtain ⟨body, index, _, quiet⟩ := accepted_bodiless accepted
  have start : length ≤ req.maxBodySize → BodyOffered length [] req := fun allowed =>
    ⟨declared, allowed, by simpa using index, by simp, fun no => (no rfl).elim⟩
  refine ⟨?_, ?_, ?_, ?_⟩
  · intro some_ allowed
    obtain ⟨last, replies, after⟩ := (start allowed).calls some_ chunks
    exact ⟨last, replies, fun whole => after.body some_ whole⟩
  · rintro some_ allowed front data back replies before rfl run
    obtain ⟨before', run', after⟩ := (start allowed).calls some_ front
    rw [run] at run'
    cases run'
    have within : before.bodyIdx ≤ length := by
      rw [after.index]
      exact Nat.min_le_right _ _
    rw [sizedBody_length]
    omega
  · rintro rfl data
    have off : req.chunked = false := quiet (by rw [declared]; exact Option.some_ne_none 0)
    refine ⟨?_, body⟩
    simp only [consumeBodySome, declared, off, Bool.false_eq_true, ↓reduceIte]
  · intro large data
    obtain ⟨size, rfl⟩ := Nat.exists_eq_add_one_of_ne_zero (show length ≠ 0 by omega)
    simp only [consumeBodySome, declared, consumeSizedSome, gt_iff_lt, large, ↓reduceIte]

theorem sized_body_exact_three : ∃ req,
    feed MessageLike.consumeHeaderSome [99] (ascii "PUT / HTTP/1.1\r\nContent-Length: 3\r\n\r\n")
      (ofSize 64) = some (37, req) ∧ SizedExact 3 [[], ascii "ab", ascii "cd"] req := by
  have accepted : (feed MessageLike.consumeHeaderSome [99]
      (ascii "PUT / HTTP/1.1\r\nContent-Length: 3\r\n\r\n") (ofSize 64)).map
        (fun after => (after.1, after.2.contentLength)) = some (37, some 3) := by
    decide +kernel
  obtain ⟨⟨count, req⟩, read, values⟩ := Option.map_eq_some_iff.mp accepted
  simp only [Prod.mk.injEq] at values
  obtain ⟨rfl, declared⟩ := values
  exact ⟨req, read, sized_body_exact read declared _⟩

end CoServer.Http.Request
