import TrustyApp.Keybox.Service
import TrustyApp.Library.Lifetime

/-!
# Lifetime of keybox connection contexts

The message, hang-up and error branches of `keybox_chan_handler` are independent.
A context is shut down by each of the last two, so an event that hangs up while
its message cannot be answered shuts the same context down twice.
-/

namespace TrustyApp.Keybox

open Ipc Reactive

variable {ifc : Interface} {width : Nat} {table : Table ChanCtx}

theorem keyboxUnwrap_returns (wrapped : List UInt8) (len : Nat) (plaintext : List UInt8)
    (plaintextLen : Nat) (inBounds : len ≤ wrapped.length) :
    ∃ status output outLen,
      keyboxUnwrap wrapped len plaintext plaintextLen = .ok (status, output, outLen) ∧
        (status = .success → outLen ≤ output.length) := by
  unfold keyboxUnwrap
  by_cases empty : len < 1
  · exact ⟨_, _, _, if_pos empty, by simp⟩
  rw [if_neg empty]
  by_cases short : plaintext.length < len - 1
  · exact ⟨_, _, _, if_pos short, by simp⟩
  rw [if_neg short, if_neg (Nat.not_lt.mpr inBounds)]
  by_cases tampered : wrapped[len - 1]? ≠ some ((wrapped.take (len - 1)).foldl (· ^^^ ·) 0)
  · exact ⟨_, _, _, if_pos tampered, by simp⟩
  · refine ⟨_, _, _, if_neg tampered, fun _ => ?_⟩
    have dataLength : ((wrapped.take (len - 1)).map (· ^^^ 0x42)).length = len - 1 := by
      simp only [List.length_map, List.length_take]
      omega
    rw [Bytes.length_overwrite (by omega)]
    omega

theorem keyboxHandleUnwrap_returns (req : List UInt8) (reqSize : Nat) (output : List UInt8)
    (received : reqSize ≤ req.length) :
    ∃ rsp, keyboxHandleUnwrap ifc width req reqSize output = .ok rsp := by
  unfold keyboxHandleUnwrap
  by_cases short : reqSize < unwrapHeaderSize
  · exact ⟨_, if_pos short⟩
  simp only [if_neg short]
  by_cases overflow : 2 ^ 64 ≤ le (req.take unwrapHeaderSize) + unwrapHeaderSize
  · exact ⟨_, if_pos overflow⟩
  rw [if_neg overflow]
  by_cases mismatch : le (req.take unwrapHeaderSize) + unwrapHeaderSize ≠ reqSize
  · exact ⟨_, if_pos mismatch⟩
  rw [if_neg mismatch]
  have inBounds : le (req.take unwrapHeaderSize) % 2 ^ width ≤
      (req.drop unwrapHeaderSize).length := by
    have narrowed := Nat.mod_le (le (req.take unwrapHeaderSize)) (2 ^ width)
    simp only [List.length_drop]
    omega
  obtain ⟨status, plaintext, len, unwrapped, fits⟩ :=
    keyboxUnwrap_returns (req.drop unwrapHeaderSize)
      (le (req.take unwrapHeaderSize) % 2 ^ width) output 0 inBounds
  simp only [unwrapped]
  by_cases success : status = .success
  · exact ⟨_, by rw [if_neg (by simp [success]), if_neg (by have := fits success; omega)]⟩
  · exact ⟨_, if_pos success⟩

def Io.fails (io : Io) : Bool := io.recv.isNone || !io.sent

def Action.lifetime : Action → Option (Lifetime.Act Addr)
  | .created ctx => some (.created ctx)
  | .sent _ _ => none
  | .shutdown ctx => some (.released ctx)

theorem keyboxResponse_returns (width : Nat) {request : Request} {io : Io} (fits : io.Fits ifc)
    (received : io.recv = some request) :
    ∃ rsp, keyboxResponse ifc width request io = .ok rsp := by
  unfold keyboxResponse
  by_cases unwrap : request.cmd = ifc.cmdUnwrap
  · have bound := fits.recv request received
    rw [if_pos unwrap]
    apply keyboxHandleUnwrap_returns
    rw [Bytes.length_overwrite (by rw [fits.req]; exact bound), fits.req]
    exact bound
  · exact ⟨_, if_neg unwrap⟩

theorem keyboxHandleMsg_returns (width : Nat) (chan : Handle) (io : Io) (fits : io.Fits ifc) :
    ∃ answered, answered.filterMap Action.lifetime = [] ∧
      keyboxHandleMsg ifc width chan io =
        .ok (if io.fails then .internalError else .success, answered) := by
  unfold keyboxHandleMsg Io.fails
  cases received : io.recv with
  | none => exact ⟨[], rfl, rfl⟩
  | some request =>
      obtain ⟨rsp, answer⟩ := keyboxResponse_returns width fits received
      simp only [answer, ok_bind]
      cases io.sent with
      | true => exact ⟨[.sent chan rsp], rfl, rfl⟩
      | false => exact ⟨[], rfl, rfl⟩

theorem keyboxShutdown_of_live {ctx : Addr} {chanCtx : ChanCtx}
    (live : table.ctxs ctx = some chanCtx) :
    keyboxShutdown table ctx =
      .ok ((table.close chanCtx.chan).free ctx, [.shutdown ctx]) := by
  simp [keyboxShutdown, load, live]

theorem keyboxShutdown_of_freed {ctx : Addr} (freed : table.ctxs ctx = none) :
    keyboxShutdown table ctx = .error (.useAfterFree ctx) := by
  simp [keyboxShutdown, load, freed]

/-- What a channel event comes to, by which of the two branches shut its context
down. -/
def chanOutcome (table : Table ChanCtx) (ctx : Addr) (chanCtx : ChanCtx)
    (answered : List Action) : Bool → Bool → Except Halt (Table ChanCtx × List Action)
  | true, true => .error (.useAfterFree ctx)
  | false, false => .ok (table, answered)
  | _, _ => .ok ((table.close chanCtx.chan).free ctx, .shutdown ctx :: answered)

theorem keyboxChanHandler_eq (width : Nat) {ctx : Addr} {chanCtx : ChanCtx} (msg hup : Bool)
    (io : Io) (live : table.ctxs ctx = some chanCtx) (fits : io.Fits ifc) :
    ∃ answered, answered.filterMap Action.lifetime = [] ∧
      keyboxChanHandler ifc width table ctx chanCtx.chan msg hup io =
        chanOutcome table ctx chanCtx answered hup (msg && io.fails) := by
  have freed : ((table.close chanCtx.chan).free ctx).ctxs ctx = none := by simp
  obtain ⟨answered, silent, message⟩ := keyboxHandleMsg_returns width chanCtx.chan io fits
  cases msg with
  | false =>
      refine ⟨[], rfl, ?_⟩
      cases hup <;> simp [keyboxChanHandler, chanOutcome, load, live, keyboxShutdown_of_live live]
  | true =>
      refine ⟨answered, silent, ?_⟩
      cases failed : io.fails <;> cases hup <;>
        simp [keyboxChanHandler, chanOutcome, load, live, message, failed,
          keyboxShutdown_of_live live, keyboxShutdown_of_freed freed]

/-- A hang-up that arrives together with a message that cannot be received or
answered. -/
def Event.shutsDownTwice : Event → Bool
  | .port _ => false
  | .chan _ msg hup io => hup && (msg && io.fails)

def lifetimes (history : List (Step (Table ChanCtx) Event (List Action))) :
    List (Lifetime.Act Addr) :=
  history.flatMap fun step => step.output.filterMap Action.lifetime

/-- Contexts and channels correspond, and the live contexts are those the log
leaves alive. -/
structure Invariant (log : List (Lifetime.Act Addr)) (table : Table ChanCtx) : Prop where
  wellFormed : table.WellFormed ChanCtx.chan
  alive : ∀ ctx, (table.ctxs ctx).isSome → Lifetime.Alive log ctx
  disciplined : Lifetime.Scoped log

theorem invariant_port {log : List (Lifetime.Act Addr)} (invariant : Invariant log table)
    {conn : Connect Unit} (offered : conn.Offered table) :
    Invariant ((keyboxPortHandler table conn).2.filterMap Action.lifetime ++ log)
      (keyboxPortHandler table conn).1 := by
  simp only [keyboxPortHandler, Table.connect_eq offered]
  cases result : conn.established with
  | none => exact invariant
  | some created =>
      obtain ⟨chan, ctx⟩ := created
      obtain ⟨closed, unused⟩ := offered.established result
      refine ⟨?_, ?_, invariant.disciplined⟩
      · exact invariant.wellFormed.connect ⟨chan⟩ closed unused
      · intro other live
        by_cases same : other = ctx
        · exact .inl same
        · rw [Table.setChan_ctxs, Table.put_ctxs_of_ne _ _ same] at live
          exact .inr (invariant.alive other live)

theorem invariant_shutdown {log : List (Lifetime.Act Addr)} (invariant : Invariant log table)
    {ctx : Addr} {chanCtx : ChanCtx} (live : table.ctxs ctx = some chanCtx) :
    Invariant (.released ctx :: log) ((table.close chanCtx.chan).free ctx) := by
  refine ⟨invariant.wellFormed.shutdown live, ?_, ?_⟩
  · intro other otherLive
    by_cases same : other = ctx
    · simp [same] at otherLive
    · rw [Table.free_ctxs_of_ne _ same] at otherLive
      exact ⟨same, invariant.alive other otherLive⟩
  · exact ⟨invariant.alive ctx (by simp [live]), invariant.disciplined⟩

theorem dispatchEvent_chan_cases (width : Nat) {log : List (Lifetime.Act Addr)}
    (invariant : Invariant log table) {handle : Handle} {msg hup : Bool} {io : Io}
    (enabled : Enabled ifc table (.chan handle msg hup io)) :
    ∃ ctx chanCtx answered, table.ctxs ctx = some chanCtx ∧
      answered.filterMap Action.lifetime = [] ∧
      dispatchEvent ifc width table (.chan handle msg hup io) =
        chanOutcome table ctx chanCtx answered hup (msg && io.fails) := by
  obtain ⟨⟨ctx, attached⟩, fits⟩ := enabled
  obtain ⟨chanCtx, live, rfl⟩ := invariant.wellFormed.attached handle ctx attached
  obtain ⟨answered, silent, handled⟩ :=
    keyboxChanHandler_eq width msg hup io live fits
  refine ⟨ctx, chanCtx, answered, live, silent, ?_⟩
  simp only [dispatchEvent, attached]
  exact handled

theorem invariant_step {log : List (Lifetime.Act Addr)}
    {step : Step (Table ChanCtx) Event (List Action)} (invariant : Invariant log step.pre)
    (performs : (service ifc width).Performs step) :
    Invariant (step.output.filterMap Action.lifetime ++ log) step.post := by
  obtain ⟨pre, event, output, post⟩ := step
  obtain ⟨enabled, handled⟩ := performs
  cases event with
  | port conn =>
      have connected : keyboxPortHandler pre conn = (post, output) := Except.ok.inj handled
      have kept := invariant_port invariant enabled
      rw [connected] at kept
      exact kept
  | chan handle msg hup io =>
      obtain ⟨ctx, chanCtx, answered, live, silent, outcome⟩ :=
        dispatchEvent_chan_cases width invariant enabled
      have handled := outcome.symm.trans handled
      cases hup <;> cases failed : (msg && io.fails) <;>
        simp only [failed, chanOutcome] at handled <;> cases handled
      · rw [silent]
        exact invariant
      all_goals
        rw [List.filterMap_cons, silent]
        exact invariant_shutdown invariant live

theorem run_invariant {history : List (Step (Table ChanCtx) Event (List Action))}
    (run : Exec (service ifc width) history table) : Invariant (lifetimes history) table := by
  apply run.rule fun history table => Invariant (lifetimes history) table
  · refine ⟨.empty _, ?_, trivial⟩
    intro ctx live
    simp [service, Table.empty] at live
  · intro history step _ invariant performs
    exact invariant_step invariant performs

theorem useAfterFree_iff {event : Event} (reached : Reachable (service ifc width) table)
    (enabled : Enabled ifc table event) :
    (∀ ctx, dispatchEvent ifc width table event ≠ .error (.useAfterFree ctx)) ↔
      event.shutsDownTwice = false := by
  obtain ⟨history, run⟩ := reached
  cases event with
  | port conn => simp [dispatchEvent, Event.shutsDownTwice]
  | chan handle msg hup io =>
      obtain ⟨ctx, chanCtx, answered, live, silent, outcome⟩ :=
        dispatchEvent_chan_cases width (run_invariant run) enabled
      rw [outcome]
      cases hup <;> cases failed : (msg && io.fails) <;>
        simp [chanOutcome, Event.shutsDownTwice, failed]

/-- A context is used after its shutdown exactly at the events that hang up while
their message fails, and no run gets past such an event; apart from that every
context is shut down at most once. -/
theorem use_after_shutdown_iff {history : List (Step (Table ChanCtx) Event (List Action))}
    {event : Event} (run : Exec (service ifc width) history table)
    (enabled : Enabled ifc table event) :
    Lifetime.ReleasedOnce (lifetimes history) ∧
      (∀ step ∈ history, step.event.shutsDownTwice = false) ∧
      ((∀ ctx, dispatchEvent ifc width table event ≠ .error (.useAfterFree ctx)) ↔
        event.shutsDownTwice = false) := by
  refine ⟨(run_invariant run).disciplined.releasedOnce, ?_, ?_⟩
  · intro step member
    obtain ⟨reached, enabled, handled⟩ := run.performed member
    apply (useAfterFree_iff reached enabled).mp
    intro ctx halted
    exact absurd (handled.symm.trans halted) (by simp)
  · exact useAfterFree_iff run.reachable enabled

def connectStep : Step (Table ChanCtx) Event (List Action) :=
  let conn : Connect Unit := ⟨some 3, (), some 16, true⟩
  ⟨.empty, .port conn, (keyboxPortHandler .empty conn).2, (keyboxPortHandler .empty conn).1⟩

theorem connectStep_performs (ifc : Interface) (width : Nat) :
    (service ifc width).Performs connectStep := by
  refine ⟨⟨?_, ?_⟩, rfl⟩
  · intro h _
    rfl
  · intro a _
    rfl

def smallInterface : Interface := ⟨0, 1, 4⟩

/-- A request of that peer whose answer cannot be sent. -/
def unansweredRequest (hup : Bool) : Event :=
  .chan 3 true hup ⟨some ⟨6, []⟩, List.replicate 12 0, List.replicate 4 0, false⟩

theorem unansweredRequest_enabled (hup : Bool) :
    Enabled smallInterface connectStep.post (unansweredRequest hup) := by
  refine ⟨⟨16, by decide⟩, by decide, by decide, ?_⟩
  intro request received
  cases received
  decide

theorem use_after_shutdown_iff_unansweredRequest :
    Lifetime.ReleasedOnce (lifetimes [connectStep]) ∧
      (∀ step ∈ [connectStep], step.event.shutsDownTwice = false) ∧
      ((∀ ctx, dispatchEvent smallInterface 64 connectStep.post (unansweredRequest false) ≠
          .error (.useAfterFree ctx)) ↔
        (unansweredRequest false).shutsDownTwice = false) :=
  use_after_shutdown_iff (Exec.start.step (connectStep_performs _ 64))
    (unansweredRequest_enabled false)

/-- A peer that sends a request and hangs up at once: the answer cannot be sent, and
its context is shut down, and then used and shut down again. -/
theorem hangup_shuts_down_twice :
    ¬ ∀ (ifc : Interface) (width : Nat)
        (history : List (Step (Table ChanCtx) Event (List Action))) (table : Table ChanCtx)
        (event : Event) (ctx : Addr),
        Exec (service ifc width) history table → Enabled ifc table event →
          dispatchEvent ifc width table event ≠ .error (.useAfterFree ctx) := by
  intro claim
  apply claim smallInterface 64 [connectStep] connectStep.post (unansweredRequest true) 16
    (Exec.start.step (connectStep_performs _ 64)) (unansweredRequest_enabled true)
  rfl

end TrustyApp.Keybox
