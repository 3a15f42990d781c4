import StreamEngine.Client.EngineProofs
import StreamEngine.Net.HttpMessages

/-! Replies that stop before they are complete. The receive loops end alike on the end of the stream,
on a timeout and on an error, and nothing compares what was received with what the headers announce. -/
namespace StreamEngine.Client
open ByteString Decimal Net

/-! ### Receiving -/

/-- What the calls of `recv` or `SSL_read` give, up to the first that gives no bytes. -/
inductive Incoming where
  | closed
  | timedOut
  | failed
  | piece (data : Bytes) (fits : 0 < data.length ∧ data.length ≤ 4096) (later : Incoming)

/-- `recv_all_plain` and `recv_all_ssl` from the bytes received so far on. -/
def recvAll (out : Bytes) : Incoming → Bytes
  | .piece data _ later => recvAll (out ++ data) later
  | .closed => out
  | .timedOut => out
  | .failed => out

def Incoming.bytes : Incoming → Bytes
  | .piece data _ later => data ++ later.bytes
  | .closed | .timedOut | .failed => []

theorem recvAll_eq (out : Bytes) (incoming : Incoming) :
    recvAll out incoming = out ++ incoming.bytes := by
  induction incoming generalizing out with
  | piece data fits later ih => rw [recvAll, ih, Incoming.bytes, List.append_assoc]
  | _ => exact (List.append_nil out).symm

/-! ### Complete replies -/

/-- A field with the length of the body. -/
def HasLength (h : Head) (n : Nat) : Prop :=
  ∃ line ∈ h.fields, ∃ blanks digits, line.map toLower = ascii "content-length:" ++ blanks ++ digits ∧
    (∀ c ∈ blanks, c = 32 ∨ c = 9) ∧ digits ≠ [] ∧ (∀ c ∈ digits, isDigit c = true) ∧
    digitsValue digits = n

/-- How the end of the body is known. The closing chunk may be followed by further fields. -/
inductive Framing (h : Head) where
  | chunked (declared : h.Chunked) (body : ChunkedBody) (fields : List Bytes)
    (areLines : ∀ line ∈ fields, line ≠ [] ∧ IsLine line)
    (ends : body.trailer = linesText fields ++ crlf)
  | length (body : Bytes) (declared : HasLength h body.length)

structure Reply where
  head : Head
  framing : Framing head

def Framing.text {h : Head} : Framing h → Bytes
  | .chunked _ body _ _ _ => body.text
  | .length body _ => body

def Reply.text (r : Reply) : Bytes := r.head.text ++ r.framing.text

/-- The reply is not accepted, and the request returns the empty string. -/
structure Refuses (raw : Bytes) : Prop where
  notOk : ∃ r, parseHttpResponse raw = some r ∧ r.ok = false
  empty : replyBody (some raw) = some []

theorem refuses_iff {raw : Bytes} :
    Refuses raw ↔ raw.take 5 ≠ ascii "HTTP/" ∨ find raw [32] 0 = none := by
  constructor
  · rintro ⟨⟨r, parsed, notOk⟩, -⟩
    by_contra accepted
    rw [not_or, not_not] at accepted
    obtain ⟨sp, found⟩ := Option.ne_none_iff_exists'.mp accepted.2
    simp only [parseHttpResponse, if_neg (not_not.mpr accepted.1), found] at parsed
    split at parsed
    · obtain ⟨body, -, rfl⟩ := Option.map_eq_some_iff.mp parsed
      contradiction
    · cases parsed
      contradiction
  · intro refused
    have none : parseHttpResponse raw = some noResponse := by
      rw [parseHttpResponse]
      rcases refused with other | spaceless
      · rw [if_pos other]
      · rw [spaceless]
        split <;> rfl
    refine ⟨⟨noResponse, none, rfl⟩, ?_⟩
    rw [replyBody, Option.getD_some, none]
    rfl

/-- Of the beginning of a reply the parser asks no more than the first space. -/
theorem refuses_prefix_iff {h : Head} {body received : Bytes} (cut : received <+: h.text ++ body) :
    Refuses received ↔ received.length ≤ 8 := by
  obtain ⟨missing, split⟩ := cut
  have space := h.space body
  rw [← split] at space
  rw [refuses_iff]
  constructor
  · intro refused
    by_contra long
    have there : find received [32] 0 = some 8 :=
      find_of_append space (by rw [List.length_singleton]; omega)
    have scheme : received.take 5 = ascii "HTTP/" := by
      rw [← h.take_five body, ← split, List.take_append_of_le_length (by omega)]
    rcases refused with other | spaceless
    · exact other scheme
    · rw [there] at spaceless
      contradiction
  · intro short
    right
    cases found : find received [32] 0 with
    | none => rfl
    | some i =>
      have inside := (find_bound found).2
      rw [List.length_singleton] at inside
      have there : find (received ++ missing) [32] 0 = some i := find_append found
      cases there.symm.trans space
      omega

/-- A reply that breaks off is refused just if it breaks off at the first space of its status line or
before, wherever its body ends and however the stream does. -/
theorem truncated_iff (reply : Reply) (incoming : Incoming)
    (cut : incoming.bytes <+: reply.text) :
    Refuses (recvAll [] incoming) ↔ incoming.bytes.length ≤ 8 := by
  rw [recvAll_eq, List.nil_append]
  exact refuses_prefix_iff cut

def lengthHead : Head where
  minor := 49
  status := ascii "200 OK"
  fields := [ascii "Content-Length: 5"]
  isMinor := isDigit_one
  isStatus := isLine_ok
  areFields := by
    intro line member
    rw [List.mem_singleton.mp member]
    exact ⟨by decide, isLine_of_free (by decide)⟩

/-- A reply of five bytes. -/
def helloReply : Reply where
  head := lengthHead
  framing := .length (ascii "hello") ⟨ascii "Content-Length: 5", List.mem_singleton_self _, ascii " ",
    ascii "5", by decide, by decide, by decide, by decide,
    by decide⟩

/-- Broken off in its status line. -/
theorem truncated_iff_version : Refuses (ascii "HTTP/1.1") ↔ (ascii "HTTP/1.1").length ≤ 8 :=
  truncated_iff helloReply (.piece (ascii "HTTP/1.1") (by decide) .timedOut) (by decide)

/-- The receipt of all but the last two bytes, with a timeout. -/
def cutShort : Incoming :=
  .piece (lengthHead.text ++ ascii "hel") (by decide) .timedOut

theorem short_body_accepted : replyBody (some (recvAll [] cutShort)) = some (ascii "hel") ∧
    ¬ ∀ (reply : Reply) (incoming : Incoming), incoming.bytes <+: reply.text →
      incoming.bytes.length < reply.text.length → Refuses (recvAll [] incoming) := by
  refine ⟨by decide, fun always => ?_⟩
  have refuses := always helloReply cutShort (by decide) (by decide)
  have body : replyBody (some (recvAll [] cutShort)) = some (ascii "hel") := by decide
  exact absurd (body.symm.trans refuses.empty) (by decide)

end StreamEngine.Client
