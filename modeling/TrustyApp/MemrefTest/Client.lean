import TrustyApp.MemrefTest.SharedPage

/-!
# The client of the lender

The client functions of `memref-test.c`.  Each sends one message and waits for one reply;
what the lender does in between, and whether the calls succeed, is an argument.
-/

namespace TrustyApp.MemrefTest

open Memory Reactive

variable {width msgSize : Nat}

structure Calls where
  sent : Bool
  waitRc : Int
  received : Bool

/-- `tipc_recv1`: a reply is received if its length is between the two sizes. -/
def tipcRecv1 (received : Bool) (reply : Option (List UInt8)) (minSize size : Nat) :
    Option (List UInt8) :=
  match reply with
  | none => none
  | some data =>
      if received = true ∧ minSize ≤ data.length ∧ data.length ≤ size then some data else none

/-- The message of a call.  `size_t` lengths go into the header as they are. -/
def clientMessage (cmd : LenderCommand) (offset size : BitVec width) (data : List UInt8)
    (fits : data.length ≤ maxWrite) : Received width :=
  ⟨⟨cmd, ⟨offset, size⟩⟩, data, fits⟩

def replyOf (output : Output) : Option (List UInt8) :=
  output.actions.findSome? fun action =>
    match action with
    | .sent _ data => some data
    | .lent _ _ => none

/-- `lender_read_bss`: what it returns and, if this is 0, the contents of `buf`.  The
output of the lender counts if the message was sent. -/
def clientReadBss (size : BitVec width) (calls : Calls) (output : Output) :
    Int × List UInt8 :=
  if ¬ calls.sent then (-1, [])
  else if calls.waitRc ≠ 0 then (calls.waitRc, [])
  else
    match tipcRecv1 calls.received (replyOf output) size.toNat size.toNat with
    | none => (-1, [])
    | some data => if (data.length : Int) ≠ toInt size then (-1, []) else (0, data)

def clientWriteBss (calls : Calls) (output : Output) : Int :=
  if ¬ calls.sent then -1
  else if calls.waitRc ≠ 0 then calls.waitRc
  else
    match tipcRecv1 calls.received (replyOf output) 0 0 with
    | none => -1
    | some data => data.length

section Call

variable {state post : State} {chan : Handle} {io : Io width} {output : Output}
  {received : Received width} {calls : Calls}

theorem tipcRecv1_eq_some {reply : Option (List UInt8)} {minSize size : Nat}
    {data : List UInt8} {delivered : Bool}
    (found : tipcRecv1 delivered reply minSize size = some data) :
    reply = some data ∧ minSize ≤ data.length ∧ data.length ≤ size := by
  unfold tipcRecv1 at found
  split at found
  · cases found
  · split at found
    next reply data' limits =>
      obtain rfl := Option.some.inj found
      exact ⟨rfl, limits.2⟩
    next => cases found

theorem Effect.replied (effect : Effect state chan io post output)
    (recv : io.recv = .ok received) {data : List UInt8} (reply : replyOf output = some data) :
    (∃ offset len, received.read? = some (offset, len) ∧
      data = (state.pages .bss).contents.read offset len) ∨
    ∃ write, received.write? = some write := by
  cases effect with
  | recvFailed | refused | unanswered | lent | writtenUnanswered => simp [replyOf] at reply
  | read same reads =>
      obtain rfl := Except.ok.inj (same.symm.trans recv)
      simp only [replyOf, List.findSome?_cons, Option.some.injEq] at reply
      exact .inl ⟨_, _, reads, reply.symm⟩
  | written same writes =>
      obtain rfl := Except.ok.inj (same.symm.trans recv)
      exact .inr ⟨_, writes⟩

theorem clientReadBss_succeeds {size : BitVec width} {buf : List UInt8}
    (succeeds : clientReadBss size calls output = (0, buf)) :
    replyOf output = some buf ∧ buf.length = size.toNat := by
  unfold clientReadBss at succeeds
  split at succeeds
  · cases succeeds
  split at succeeds
  next waiting =>
    exact absurd (Prod.mk.inj succeeds).1 waiting
  split at succeeds
  · cases succeeds
  next data found =>
    split at succeeds
    · cases succeeds
    · obtain ⟨-, rfl⟩ := Prod.mk.inj succeeds
      obtain ⟨reply, above, below⟩ := tipcRecv1_eq_some found
      exact ⟨reply, Nat.le_antisymm below above⟩

theorem clientWriteBss_succeeds (succeeds : clientWriteBss calls output = 0) :
    ∃ data, replyOf output = some data := by
  unfold clientWriteBss at succeeds
  split at succeeds
  · cases succeeds
  split at succeeds
  next waiting => exact absurd succeeds waiting
  split at succeeds
  · cases succeeds
  next data found => exact ⟨data, (tipcRecv1_eq_some found).1⟩

end Call

variable {start state : State} {later between earlier : List (Step State (Event width) Output)}
  {write read : Step State (Event width) Output} {bssCreated roCreated rwCreated : Bool}

/-- What a client has written with success is what any client reads with success later,
in whole or in part, as long as nothing else was written there in between. -/
theorem written_bytes_read_back (wide : pageSize < 2 ^ width)
    (started : init bssCreated roCreated rwCreated = some start)
    (run : Exec (lender width msgSize start) (read :: (between ++ write :: earlier)) state)
    {chan chan' : Handle} {offset size offset' size' : BitVec width} {data data' buf : List UInt8}
    {fits : data.length ≤ maxWrite} {fits' : data'.length ≤ maxWrite}
    {reply reply' : Except Int Unit} {calls calls' : Calls}
    (writes : write.event =
      .message chan ⟨.ok (clientMessage .writeBss offset size data fits), reply⟩)
    (written : clientWriteBss calls write.output = 0)
    (reads : read.event =
      .message chan' ⟨.ok (clientMessage .readBss offset' size' data' fits'), reply'⟩)
    (delivered : clientReadBss size' calls' read.output = (0, buf))
    (part : offset.toNat ≤ offset'.toNat ∧
      offset'.toNat + size'.toNat ≤ offset.toNat + data.length)
    (untouched : ∀ step ∈ between, ∀ other, step.event.write? .bss = some other →
      ∀ i, offset'.toNat ≤ i → i < offset'.toNat + size'.toNat → ¬ other.Covers i) :
    buf = (data.drop (offset'.toNat - offset.toNat)).take size'.toNat := by
  have initially := (init_started started).1
  have wholeRun : Exec (lender width msgSize start)
      ([] ++ read :: (between ++ write :: earlier)) state := run
  obtain ⟨beforeRead, readPerforms, -⟩ := wholeRun.at_step
  obtain ⟨-, writePerforms, -⟩ := beforeRead.at_step
  -- the write was accepted
  obtain ⟨answer, replied⟩ := clientWriteBss_succeeds written
  have accepted : write.event.write? .bss = some ⟨offset.toNat, data⟩ := by
    rcases (performs_effect wide writePerforms writes).replied rfl replied with
      ⟨_, _, asRead, -⟩ | ⟨other, asWrite⟩
    · simp [Received.read?, clientMessage] at asRead
    · have same : other = ⟨offset.toNat, data⟩ := by
        simp only [Received.write?, clientMessage, Option.ite_none_right_eq_some,
          Option.some.injEq] at asWrite
        exact asWrite.2.symm
      rw [writes, Event.write?]
      simp only [if_true]
      rw [asWrite, same]
  -- and the read is answered from the page
  obtain ⟨answer', -⟩ := clientReadBss_succeeds delivered
  rcases (performs_effect wide readPerforms reads).replied rfl answer' with
    ⟨first, len, asRead, contents⟩ | ⟨_, asWrite⟩
  swap
  · simp [Received.write?, clientMessage] at asWrite
  have range : first = offset'.toNat ∧ len = size'.toNat := by
    simp only [Received.read?, clientMessage, Option.ite_none_right_eq_some,
      Option.some.injEq, Prod.mk.injEq] at asRead
    exact ⟨asRead.2.1.symm, asRead.2.2.symm⟩
  obtain ⟨rfl, rfl⟩ := range
  have log : writesTo .bss (between ++ write :: earlier) =
      writesTo .bss between ++ ⟨offset.toNat, data⟩ :: writesTo .bss earlier := by
    simp [writesTo, List.filterMap_append, accepted]
  have apart : ∀ other ∈ writesTo .bss between, ∀ i, offset'.toNat ≤ i →
      i < offset'.toNat + size'.toNat → ¬ other.Covers i := by
    intro other member
    obtain ⟨step, inBetween, isWrite⟩ := List.mem_filterMap.mp member
    exact untouched step inBetween other isWrite
  rw [contents, contents_of_exec wide initially beforeRead, memory, log,
    read_latest_append apart, read_latest_write _ _ part.1 part.2]

/-- Another client reads the second of the two bytes. -/
def readStep : Step State (Event 64) Output :=
  ⟨writeStep.post, .message 6 ⟨.ok (clientMessage .readBss 2 1 [] (Nat.zero_le _)), .ok ()⟩,
    ⟨0, [.sent 6 ((writtenPage.bytes.drop 2).take 1)]⟩, writeStep.post⟩

theorem readStep_exec :
    Exec (lender 64 24 freshState) [readStep, writeStep] readStep.post :=
  writeStep_exec.step ⟨⟨by simp, by simp⟩, rfl⟩

theorem written_bytes_read_back_second :
    (writtenPage.bytes.drop 2).take 1 = [8] := by
  have run : Exec (lender 64 24 freshState) (readStep :: ([] ++ writeStep :: [])) readStep.post :=
    readStep_exec
  have written : clientWriteBss ⟨true, 0, true⟩ writeStep.output = 0 := rfl
  have delivered : clientReadBss (1 : BitVec 64) ⟨true, 0, true⟩ readStep.output =
      (0, (writtenPage.bytes.drop 2).take 1) := rfl
  exact written_bytes_read_back (by decide)
    (show init true true true = some freshState from rfl) run
    (show writeStep.event =
      .message 5 ⟨.ok (clientMessage .writeBss 1 2 [7, 8] (by decide)), .ok ()⟩ from rfl) written
    (show readStep.event =
      .message 6 ⟨.ok (clientMessage .readBss 2 1 [] (Nat.zero_le _)), .ok ()⟩ from rfl) delivered
    (by decide) (by simp)

end TrustyApp.MemrefTest
