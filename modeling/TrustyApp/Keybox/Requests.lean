import TrustyApp.Keybox.Contexts

/-!
# Parsing of keybox requests

The answer to a message is a function of the bytes that were received.  It is stated
here without the buffers and the two integer widths of the code: neither what the
request buffer held before nor the width of `size_t` makes a difference.
-/

namespace TrustyApp.Keybox

open Ipc Reactive

variable {ifc : Interface} {width : Nat} {request : Request} {io : Io}

def checksum (bytes : List UInt8) : UInt8 := bytes.foldl (· ^^^ ·) 0

/-- A body that holds a length field and a wrapped keybox of just that length, the
last byte of which is the checksum of the others. -/
structure WellFormed (body : List UInt8) : Prop where
  header : unwrapHeaderSize ≤ body.length
  length : le (body.take unwrapHeaderSize) = (body.drop unwrapHeaderSize).length
  notEmpty : 1 ≤ (body.drop unwrapHeaderSize).length
  intact : (body.drop unwrapHeaderSize).getLast? =
    some (checksum (body.drop unwrapHeaderSize).dropLast)

def unwrapped (wrapped : List UInt8) : List UInt8 := wrapped.dropLast.map (· ^^^ 0x42)

def unwrapAnswer (ifc : Interface) (body : List UInt8) : Rsp :=
  let wrapped := body.drop unwrapHeaderSize
  let rsp (status : Status) : Rsp := ⟨ifc.cmdUnwrap ||| ifc.cmdRspBit, status, none⟩
  if body.length < unwrapHeaderSize then rsp .invalidRequest
  else if le (body.take unwrapHeaderSize) ≠ wrapped.length then rsp .invalidRequest
  else if wrapped.length < 1 then rsp .invalidRequest
  else if wrapped.getLast? ≠ some (checksum wrapped.dropLast) then rsp .unwrapFail
  else { rsp .success with unwrapped := some (wrapped.length - 1, unwrapped wrapped) }

def answer (ifc : Interface) (request : Request) : Rsp :=
  if request.cmd = ifc.cmdUnwrap then unwrapAnswer ifc request.body
  else ⟨request.cmd ||| ifc.cmdRspBit, .invalidRequest, none⟩

theorem length_unwrapped (wrapped : List UInt8) :
    (unwrapped wrapped).length = wrapped.length - 1 := by
  simp [unwrapped]

theorem unwrapAnswer_cases (ifc : Interface) (body : List UInt8) :
    (WellFormed body ∧ unwrapAnswer ifc body =
        ⟨ifc.cmdUnwrap ||| ifc.cmdRspBit, .success,
          some ((body.drop unwrapHeaderSize).length - 1,
            unwrapped (body.drop unwrapHeaderSize))⟩) ∨
      (¬ WellFormed body ∧ (unwrapAnswer ifc body).status ≠ .success ∧
        (unwrapAnswer ifc body).unwrapped = none) := by
  unfold unwrapAnswer
  by_cases short : body.length < unwrapHeaderSize
  · refine .inr ⟨fun wellFormed => absurd wellFormed.header (by omega), ?_⟩
    simp [short]
  by_cases mismatch : le (body.take unwrapHeaderSize) ≠ (body.drop unwrapHeaderSize).length
  · refine .inr ⟨fun wellFormed => mismatch wellFormed.length, ?_⟩
    simp only [if_neg short, if_pos mismatch]
    exact ⟨by decide, trivial⟩
  by_cases empty : (body.drop unwrapHeaderSize).length < 1
  · refine .inr ⟨fun wellFormed => absurd wellFormed.notEmpty (by omega), ?_⟩
    simp only [if_neg short, if_neg mismatch, if_pos empty]
    exact ⟨by decide, trivial⟩
  by_cases tampered : (body.drop unwrapHeaderSize).getLast? ≠
      some (checksum (body.drop unwrapHeaderSize).dropLast)
  · refine .inr ⟨fun wellFormed => tampered wellFormed.intact, ?_⟩
    simp only [if_neg short, if_neg mismatch, if_neg empty, if_pos tampered]
    exact ⟨by decide, trivial⟩
  · refine .inl ⟨⟨by omega, not_not.mp mismatch, by omega, not_not.mp tampered⟩, ?_⟩
    simp only [if_neg short, if_neg mismatch, if_neg empty, if_neg tampered]

theorem keyboxUnwrap_eq {wrapped buffer plaintext : List UInt8} (plaintextLen : Nat)
    (prefixed : buffer.take wrapped.length = wrapped) (notEmpty : 1 ≤ wrapped.length)
    (room : wrapped.length - 1 ≤ plaintext.length) :
    keyboxUnwrap buffer wrapped.length plaintext plaintextLen =
      if wrapped.getLast? ≠ some (checksum wrapped.dropLast) then
        .ok (.unwrapFail, plaintext, plaintextLen)
      else .ok (.success, Bytes.overwrite plaintext (unwrapped wrapped), wrapped.length - 1) := by
  have inBounds : wrapped.length ≤ buffer.length := by
    have length := congrArg List.length prefixed
    rw [List.length_take] at length
    omega
  have data : buffer.take (wrapped.length - 1) = wrapped.dropLast := by
    rw [List.dropLast_eq_take, ← prefixed, List.take_take, prefixed]
    congr 1
    omega
  have last : buffer[wrapped.length - 1]? = wrapped.getLast? := by
    rw [List.getLast?_eq_getElem?]
    nth_rewrite 2 [← prefixed]
    rw [List.getElem?_take_of_lt (by omega)]
  unfold keyboxUnwrap
  rw [if_neg (by omega), if_neg (by omega), if_neg (by omega), data, last]
  rfl

/-- Only the received bytes of the buffer matter. -/
theorem keyboxHandleUnwrap_eq {buffer body output : List UInt8}
    (prefixed : buffer.take body.length = body)
    (received : body.length ≤ unwrapHeaderSize + ifc.maxSize)
    (space : output.length = ifc.maxSize) (small : body.length < 2 ^ width)
    (wide : width ≤ 64) :
    keyboxHandleUnwrap ifc width buffer body.length output = .ok (unwrapAnswer ifc body) := by
  unfold keyboxHandleUnwrap unwrapAnswer
  by_cases short : body.length < unwrapHeaderSize
  · simp only [if_pos short]
  have field : buffer.take unwrapHeaderSize = body.take unwrapHeaderSize := by
    rw [← prefixed, List.take_take]
    congr 1
    omega
  have rest : (buffer.drop unwrapHeaderSize).take (body.drop unwrapHeaderSize).length =
      body.drop unwrapHeaderSize := by
    have dropped := congrArg (List.drop unwrapHeaderSize) prefixed
    rwa [List.drop_take, ← List.length_drop] at dropped
  have bound : (2 : Nat) ^ width ≤ 2 ^ 64 := Nat.pow_le_pow_right (by omega) wide
  simp only [if_neg short, field]
  generalize le (body.take unwrapHeaderSize) = wrappedLen
  by_cases mismatch : wrappedLen ≠ (body.drop unwrapHeaderSize).length
  · have length : (body.drop unwrapHeaderSize).length = body.length - unwrapHeaderSize :=
      List.length_drop
    simp only [if_pos mismatch]
    split
    · rfl
    · rw [if_pos (by omega)]
  obtain rfl := not_not.mp mismatch
  generalize wrappedIs : body.drop unwrapHeaderSize = wrapped at rest
  have length : wrapped.length + unwrapHeaderSize = body.length := by
    rw [← wrappedIs, List.length_drop]
    omega
  have narrowed : wrapped.length % 2 ^ width = wrapped.length := Nat.mod_eq_of_lt (by omega)
  simp only [length, narrowed, ne_eq, not_true_eq_false, if_false,
    if_neg (show ¬ 2 ^ 64 ≤ body.length by omega)]
  by_cases empty : wrapped.length < 1
  · have unwrapped : keyboxUnwrap (buffer.drop unwrapHeaderSize) wrapped.length output 0 =
        .ok (.invalidRequest, output, 0) := if_pos empty
    simp [unwrapped, empty]
  rw [keyboxUnwrap_eq 0 rest (by omega) (by omega), if_neg empty]
  by_cases tampered : wrapped.getLast? ≠ some (checksum wrapped.dropLast)
  · simp [if_pos tampered]
  · have size := length_unwrapped wrapped
    have room : ¬ (Bytes.overwrite output (unwrapped wrapped)).length < wrapped.length - 1 := by
      rw [Bytes.length_overwrite (by omega)]
      omega
    have payload : (Bytes.overwrite output (unwrapped wrapped)).take (wrapped.length - 1) =
        unwrapped wrapped := by
      rw [← size]
      exact Bytes.take_overwrite output (unwrapped wrapped)
    have reported : (wrapped.length - 1) % 2 ^ width = wrapped.length - 1 :=
      Nat.mod_eq_of_lt (by omega)
    simp [if_neg tampered, if_neg room, payload, reported]

theorem keyboxResponse_eq (fits : io.Fits ifc) (received : io.recv = some request)
    (small : unwrapHeaderSize + ifc.maxSize < 2 ^ width) (wide : width ≤ 64) :
    keyboxResponse ifc width request io = .ok (answer ifc request) := by
  unfold keyboxResponse answer
  have bound := fits.recv request received
  split
  · exact keyboxHandleUnwrap_eq (Bytes.take_overwrite io.req request.body) bound fits.output
      (by omega) wide
  · rfl

theorem answer_success_iff :
    (answer ifc request).status = .success ↔
      request.cmd = ifc.cmdUnwrap ∧ WellFormed request.body := by
  unfold answer
  by_cases unwrap : request.cmd = ifc.cmdUnwrap
  · rcases unwrapAnswer_cases ifc request.body with ⟨wellFormed, answered⟩ | ⟨malformed, failed, -⟩
    · simp [unwrap, wellFormed, answered]
    · simp [unwrap, malformed, failed]
  · simp [unwrap]

theorem keyboxUnwrap_keepsSize {wrapped plaintext output : List UInt8}
    {len plaintextLen outLen : Nat} {status : Status}
    (result : keyboxUnwrap wrapped len plaintext plaintextLen = .ok (status, output, outLen)) :
    output.length = plaintext.length := by
  unfold keyboxUnwrap at result
  split at result
  · cases result
    rfl
  split at result
  · cases result
    rfl
  split at result
  · cases result
  dsimp only at result
  split at result
  · cases result
    rfl
  next room _ _ =>
    cases result
    apply Bytes.length_overwrite
    rw [List.length_map, List.length_take]
    omega

/-- Every message gets one response, which is determined by the received bytes.  It is a
success just for well-formed unwrap requests, and otherwise a header with an error; no
read goes beyond the received bytes and no write beyond the plaintext buffer. -/
theorem keybox_request_parsing (sizeT : width = 32 ∨ width = 64)
    (small : unwrapHeaderSize + ifc.maxSize < 2 ^ width) (chan : Handle) (request : Request)
    (bounded : request.body.length ≤ unwrapHeaderSize + ifc.maxSize) :
    ∃ rsp : Rsp,
      (∀ io : Io, io.Fits ifc → io.recv = some request →
        keyboxHandleMsg ifc width chan io =
          if io.sent then .ok (.success, [.sent chan rsp]) else .ok (.internalError, [])) ∧
      (rsp.status = .success ↔ request.cmd = ifc.cmdUnwrap ∧ WellFormed request.body) ∧
      (rsp.status = .success → ∃ payload,
        rsp.unwrapped = some (le (request.body.take unwrapHeaderSize) - 1, payload) ∧
          payload.length = le (request.body.take unwrapHeaderSize) - 1) ∧
      (rsp.status ≠ .success → rsp.unwrapped = none) ∧
      (request.cmd = ifc.cmdUnwrap → ∀ output : List UInt8, output.length = ifc.maxSize →
        keyboxHandleUnwrap ifc width request.body request.body.length output = .ok rsp) ∧
      ∀ (wrapped output written : List UInt8) (len outLen : Nat) (status : Status),
        keyboxUnwrap wrapped len output 0 = .ok (status, written, outLen) →
          written.length = output.length := by
  have wide : width ≤ 64 := by omega
  refine ⟨answer ifc request, ?_, answer_success_iff, ?_, ?_, ?_, ?_⟩
  · intro io fits received
    simp only [keyboxHandleMsg, received, keyboxResponse_eq fits received small wide, ok_bind]
  · intro success
    obtain ⟨unwrap, wellFormed⟩ := answer_success_iff.mp success
    rcases unwrapAnswer_cases ifc request.body with ⟨-, answered⟩ | ⟨malformed, -, -⟩
    · refine ⟨unwrapped (request.body.drop unwrapHeaderSize), ?_, ?_⟩
      · rw [answer, if_pos unwrap, answered, wellFormed.length]
      · rw [length_unwrapped, wellFormed.length]
    · exact absurd wellFormed malformed
  · intro failed
    by_cases unwrap : request.cmd = ifc.cmdUnwrap
    · rcases unwrapAnswer_cases ifc request.body with ⟨wellFormed, -⟩ | ⟨-, -, headerOnly⟩
      · exact absurd (answer_success_iff.mpr ⟨unwrap, wellFormed⟩) failed
      · rw [answer, if_pos unwrap, headerOnly]
    · rw [answer, if_neg unwrap]
  · intro unwrap output space
    rw [answer, if_pos unwrap]
    exact keyboxHandleUnwrap_eq (List.take_length) bounded space (by omega) wide
  · intro wrapped output written len outLen status result
    exact keyboxUnwrap_keepsSize result

/-- A wrapped keybox of two bytes, with its checksum. -/
def wrappedRequest : Request := ⟨0, [3, 0, 0, 0, 0, 0, 0, 0, 5, 6, 3]⟩

def wrappedIo : Io := ⟨some wrappedRequest, List.replicate 12 9, List.replicate 4 9, true⟩

theorem wrappedIo_fits : wrappedIo.Fits smallInterface := by
  refine ⟨rfl, rfl, ?_⟩
  intro request received
  cases received
  decide

theorem keybox_request_parsing_wrapped :
    ∃ rsp, keyboxHandleMsg smallInterface 32 3 wrappedIo = .ok (.success, [.sent 3 rsp]) ∧
      rsp.status = .success := by
  have small : unwrapHeaderSize + smallInterface.maxSize < 2 ^ 32 := by decide
  obtain ⟨rsp, answered, success, -⟩ :=
    keybox_request_parsing (.inl rfl) small 3 wrappedRequest (by decide)
  refine ⟨rsp, answered wrappedIo wrappedIo_fits rfl, success.mpr ⟨rfl, ?_⟩⟩
  exact ⟨by decide, by decide, by decide, by decide⟩

end TrustyApp.Keybox
