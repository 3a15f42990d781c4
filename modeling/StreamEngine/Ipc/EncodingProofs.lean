import StreamEngine.Ipc.ServerProofs
import StreamEngine.Json.Encoding

/-! The encoding of the responses. While the request texts are UTF-8 with paired
surrogates, and handlers make nothing but UTF-8 of UTF-8, every response frame is
UTF-8. The method name of a request nobody handles comes back in an error message. -/
namespace StreamEngine.Ipc
open ByteString Binary64 Json JsonText

variable {σ : Type}

theorem isUtf8_find {v w : Value} {k : Bytes} (valid : v.IsUtf8) (found : v.find k = some w) :
    w.IsUtf8 := by
  cases v with
  | obj members =>
    rw [Value.IsUtf8, Value.All] at valid
    exact (allMembers_iff.mp valid _ (OrderedMap.mem_of_lookup found)).2
  | null | bool | num | str | arr => contradiction

theorem valid_getStr {v : Value} {k : Bytes} (valid : v.IsUtf8) : Utf8.Valid (v.getStr k []) := by
  unfold Value.getStr
  split
  · rename_i s found
    simpa only [Value.IsUtf8, Value.All] using isUtf8_find valid found
  · exact Utf8.valid_nil

theorem isUtf8_params {msg : Value} (valid : msg.IsUtf8) : (params msg).IsUtf8 := by
  unfold params
  cases found : msg.find (ascii "params") with
  | none =>
    rw [Option.getD_none, Value.IsUtf8, Value.All, Value.AllMembers]
    trivial
  | some w => exact isUtf8_find valid found

/-- An outcome whose strings are UTF-8. -/
structure Outcome.IsUtf8 (outcome : Outcome) : Prop where
  result : outcome.result.IsUtf8
  errCode : Utf8.Valid outcome.errCode
  errMsg : Utf8.Valid outcome.errMsg

theorem isUtf8_unsupported {msg : Value} (valid : msg.IsUtf8) : (unsupported msg).IsUtf8 where
  result := by simp [unsupported, Value.IsUtf8, Value.All]
  errCode := Utf8.valid_ascii (s := ascii "unsupported_method") (by decide)
  errMsg := (Utf8.valid_ascii (s := ascii "unknown method: ") (by decide)).append (valid_getStr valid)

theorem isUtf8_response {outcome : Outcome} (valid : outcome.IsUtf8) (id : Double) :
    (response id outcome).IsUtf8 := by
  obtain ⟨result, errCode, errMsg⟩ := valid
  have keys : ∀ k ∈ [ascii "id", ascii "kind", ascii "res", ascii "ok", ascii "result", ascii "error",
      ascii "code", ascii "message"], Utf8.Valid k := by
    intro k member
    refine Utf8.valid_ascii ?_
    revert k
    decide
  simp only [List.mem_cons, List.not_mem_nil, or_false, forall_eq_or_imp, forall_eq] at keys
  obtain ⟨idKey, kindKey, res, okKey, resultKey, errorKey, codeKey, messageKey⟩ := keys
  rw [response_eq, resMessage]
  split
  · simp only [Value.IsUtf8, Value.All, Value.AllMembers] at result ⊢
    exact ⟨idKey, trivial, kindKey, res, okKey, trivial, resultKey, result, trivial⟩
  · simp only [Value.IsUtf8, Value.All, Value.AllMembers]
    exact ⟨errorKey, ⟨codeKey, errCode, messageKey, errMsg, trivial⟩, idKey, trivial, kindKey, res,
      okKey, trivial, trivial⟩

/-- Handlers that make nothing but UTF-8 of UTF-8, in what they answer and in what they keep. -/
def Careful (table : Table σ) (Sound : σ → Prop) : Prop :=
  ∀ method handler, table method = some handler → ∀ params app, params.IsUtf8 → Sound app →
    (handler params app).1.IsUtf8 ∧ Sound (handler params app).2

theorem answer_careful {table : Table σ} {Sound : σ → Prop} (careful : Careful table Sound)
    {msg : Value} {app : σ} (valid : msg.IsUtf8) (sound : Sound app) :
    (answer table msg app).1.IsUtf8 ∧ Sound (answer table msg app).2.2 := by
  unfold answer
  cases found : table (method msg) with
  | none => exact ⟨isUtf8_unsupported valid, sound⟩
  | some handler => exact careful _ handler found (params msg) app (isUtf8_params valid) sound

theorem isUtf8_request {raw : Bytes} {msg : Value} (utf8 : Utf8.Valid raw)
    (paired : PairedText raw) (request : request? raw = some msg) : msg.IsUtf8 := by
  unfold request? at request
  split at request
  · contradiction
  · rename_i v accepted
    split at request
    · obtain rfl := Option.some.inj request
      exact (parse_utf8_iff utf8 accepted).mpr paired
    · contradiction

/-- What the request loop writes are UTF-8 messages. -/
theorem run_writes {table : Table σ} {Sound : σ → Prop} (careful : Careful table Sound) (fuel : Nat)
    {frames : List Frame} (pipe : Pipe σ) (input : pipe.input = wire frames)
    (utf8 : ∀ frame ∈ frames, Utf8.Valid frame.payload)
    (paired : ∀ frame ∈ frames, PairedText frame.payload) (sound : Sound pipe.app) :
    ∃ messages : List Bytes, (∀ m ∈ messages, Utf8.Valid m) ∧
      ((run Pipe.transport (Pipe.handlers table) fuel).run pipe).2.output =
        pipe.output ++ messages.flatMap encodeFrame := by
  induction fuel generalizing frames pipe with
  | zero => exact ⟨[], by simp, by rw [run]; simp; rfl⟩
  | succ fuel ih =>
    cases frames with
    | nil =>
      refine ⟨[], by simp, ?_⟩
      rw [run_closed input]
      simp
    | cons frame frames =>
      have others := fun f member => utf8 f (List.mem_cons_of_mem frame member)
      have otherPairs := fun f member => paired f (List.mem_cons_of_mem frame member)
      have next : pipe.input = encodeFrame frame.payload ++ wire frames := input
      cases request : request? frame.payload with
      | none =>
        rw [run_ignored next request]
        exact ih { pipe with input := wire frames } rfl others otherPairs sound
      | some msg =>
        have valid := isUtf8_request (utf8 frame (by simp)) (paired frame (by simp)) request
        obtain ⟨answered, kept⟩ := answer_careful careful valid sound
        have message := valid_dumpTo (isUtf8_response answered (echoedId msg))
        by_cases fits : (dump (response (echoedId msg) (answer table msg pipe.app).1)).length ≤ kMaxFrame
        · rw [run_answered next request fits]
          obtain ⟨messages, later, output⟩ :=
            ih (pipe.answered table msg (wire frames)) rfl others otherPairs kept
          refine ⟨_ :: messages, List.forall_mem_cons.mpr ⟨message, later⟩, output.trans ?_⟩
          rw [List.flatMap_cons, ← List.append_assoc]
          rfl
        · -- a response that no frame can carry ends the loop
          refine ⟨[], by simp, ?_⟩
          rw [run_refused next request (not_le.mp fits)]
          simp

/-- For UTF-8 frames, what is decoded from a frame is UTF-8 exactly when its surrogates are
paired, and over frames that all are, every response frame is UTF-8. -/
theorem run_utf8 {table : Table σ} {Sound : σ → Prop} (careful : Careful table Sound)
    {frames : List Frame} (utf8 : ∀ frame ∈ frames, Utf8.Valid frame.payload) {app : σ}
    (sound : Sound app) :
    (∀ frame ∈ frames, ∀ v, parse frame.payload = some v →
      (v.IsUtf8 ↔ PairedText frame.payload)) ∧
    ((∀ frame ∈ frames, PairedText frame.payload) → ∀ fuel, ∃ messages : List Bytes,
      (∀ m ∈ messages, Utf8.Valid m) ∧
        ((run Pipe.transport (Pipe.handlers table) fuel).run ⟨wire frames, [], [], app⟩).2.output =
          messages.flatMap encodeFrame) := by
  constructor
  · intro frame member v accepted
    exact parse_utf8_iff (utf8 frame member) accepted
  · intro paired fuel
    exact run_writes careful fuel ⟨wire frames, [], [], app⟩ rfl utf8 paired sound

/-- A handler that answers with its parameters. -/
def echoTable : Table Unit := fun method =>
  if method = ascii "echo" then some fun params app => (⟨params, [], []⟩, app) else none

def echoFrame : Frame :=
  ⟨ascii "\x7b\"kind\":\"req\",\"method\":\"echo\"\x7d", by decide⟩

theorem run_utf8_echo :
    (∀ frame ∈ [echoFrame], ∀ v, parse frame.payload = some v →
      (v.IsUtf8 ↔ PairedText frame.payload)) ∧
    ((∀ frame ∈ [echoFrame], PairedText frame.payload) → ∀ fuel, ∃ messages : List Bytes,
      (∀ m ∈ messages, Utf8.Valid m) ∧
        ((run Pipe.transport (Pipe.handlers echoTable) fuel).run
          ⟨wire [echoFrame], [], [], ()⟩).2.output = messages.flatMap encodeFrame) := by
  have careful : Careful echoTable fun _ => True := by
    intro method handler found params app valid _
    unfold echoTable at found
    split at found
    · obtain rfl := Option.some.inj found
      exact ⟨⟨valid, Utf8.valid_nil, Utf8.valid_nil⟩, trivial⟩
    · contradiction
  refine run_utf8 careful ?_ trivial
  intro frame member
  obtain rfl := List.mem_singleton.mp member
  exact Utf8.valid_ascii (by decide)

/-- A request for a method whose name is one low surrogate. -/
def surrogateFrame : Frame :=
  ⟨ascii "\x7b\"kind\":\"req\",\"method\":\"\\udc00\"\x7d", by decide⟩

def surrogateRequest : Value :=
  .obj [(ascii "kind", .str (ascii "req")), (ascii "method", .str [237, 176, 128])]

theorem parse_surrogateFrame : parse surrogateFrame.payload = some surrogateRequest := by
  have blank : Blank [] := by simp [Blank]
  have kindKey : relaxed.string (ascii "kind") _ := relaxed_raw (by decide)
  have reqText : relaxed.string (ascii "req") _ := relaxed_raw (by decide)
  have methodKey : relaxed.string (ascii "method") _ := relaxed_raw (by decide)
  have lone : relaxed.string (ascii "\\udc00")
      [.escape (.unit ⟨100, 99, 48, 48, by decide⟩)] := by
    refine ⟨?_, rfl⟩
    intro p member
    obtain rfl := List.mem_singleton.mp member
    unfold Admitted Json.Taken Hex.High
    decide
  have last := Derives.lastMember blank methodKey blank blank (.text lone) blank
  have members := Derives.member blank kindKey blank blank (.text reqText) blank last
  exact parse_of_text relaxed_readable ⟨[], _, [], blank, .object members, blank, rfl⟩

def surrogateAnswer : Bytes :=
  dump (response (echoedId surrogateRequest) (unsupported surrogateRequest))

theorem surrogateAnswer_invalid : ¬ Utf8.Valid surrogateAnswer := by
  have text : surrogateAnswer =
      ascii "\x7b\"error\":\x7b\"code\":\"unsupported_method\",\"message\":\"unknown method: " ++
        (encodeUtf8 0xdc00 ++ ascii "\"\x7d,\"id\":0,\"kind\":\"res\",\"ok\":false\x7d") := by
    decide +kernel
  rw [text]
  intro whole
  exact surrogate_invalid (by decide) (by decide) _
    (whole.of_append (Utf8.valid_ascii (by decide)))

/-- The answer to it is no UTF-8. -/
theorem run_surrogate :
    Utf8.Valid surrogateFrame.payload ∧ ∃ message, ¬ Utf8.Valid message ∧
      ((run Pipe.transport (Pipe.handlers fun _ => none) 2).run
        ⟨wire [surrogateFrame], [], [], ()⟩).2.output = encodeFrame message := by
  have request : request? surrogateFrame.payload = some surrogateRequest := by
    rw [request?, parse_surrogateFrame]
    rfl
  exact ⟨Utf8.valid_ascii (by decide), surrogateAnswer, surrogateAnswer_invalid,
    run_unhandled request (by decide +kernel)⟩

end StreamEngine.Ipc
