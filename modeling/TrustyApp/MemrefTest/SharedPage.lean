import TrustyApp.MemrefTest.Lender

/-!
# The lender as a memory

Seen from outside the pages are memories: each byte is what the latest write to it has
left, whether it came in a message or was stored through a lent reference.
-/

namespace TrustyApp.MemrefTest

open Memory Reactive

variable {width : Nat} {state : State} {chan : Handle} {io : Io width}
  {region : LenderRegion width} {page : Page} {data : List UInt8} {offset len : Nat}

def Page.contents (page : Page) : Store := fun i => page.bytes.getD i 0

theorem Page.read_eq (inside : offset + len ≤ pageSize) :
    page.read offset len = .ok (page.contents.read offset len) := by
  have size := page.size
  rw [Page.read, if_pos inside]
  congr 1
  apply List.ext_getElem
  · simp
    omega
  · intro i _ inRange
    have below : i < len := by simpa using inRange
    have onPage : offset + i < page.bytes.length := by omega
    simp [Store.read, Page.contents, onPage]

theorem getD_spliced {bytes : List UInt8} (inside : offset + data.length ≤ bytes.length)
    (i : Nat) : (spliced bytes data offset).getD i 0 =
      if offset ≤ i then (data[i - offset]?).getD (bytes.getD i 0) else bytes.getD i 0 := by
  have front : (bytes.take offset).length = offset := by
    rw [List.length_take]
    omega
  simp only [spliced, List.getD_eq_getElem?_getD]
  by_cases before : i < offset
  · rw [List.append_assoc, List.getElem?_append_left (by omega), if_neg (by omega),
      List.getElem?_take_of_lt before]
  rw [if_pos (by omega)]
  by_cases within : i - offset < data.length
  · rw [List.getElem?_append_left (by simp only [List.length_append]; omega),
      List.getElem?_append_right (by omega), front, List.getElem?_eq_getElem within]
    rfl
  · rw [List.getElem?_append_right (by simp only [List.length_append]; omega),
      List.getElem?_eq_none (by omega : data.length ≤ i - offset)]
    simp only [List.length_append, front, List.getElem?_drop, Option.getD_none]
    congr 2
    omega

theorem Page.write_eq (inside : offset + data.length ≤ pageSize) :
    ∃ written, page.write offset data = .ok written ∧
      written.contents = page.contents.write offset data := by
  refine ⟨_, dif_pos inside, ?_⟩
  funext i
  exact getD_spliced (page.size ▸ inside) i

/-- The region lies in the page, without any wrapping. -/
def LenderRegion.Inside (region : LenderRegion width) : Prop :=
  region.offset.toNat + region.size.toNat ≤ pageSize

instance (region : LenderRegion width) : Decidable region.Inside :=
  inferInstanceAs (Decidable (_ ≤ _))

theorem lenderCheckRegion_eq (wide : pageSize < 2 ^ width) (region : LenderRegion width) :
    lenderCheckRegion region pageSize = if region.Inside then 0 else -1 := by
  unfold lenderCheckRegion
  by_cases overflows : region.offset.uaddOverflow region.size = true
  · have above : 2 ^ width ≤ region.offset.toNat + region.size.toNat := by
      simpa [BitVec.uaddOverflow] using overflows
    have outside : ¬ region.Inside := by
      unfold LenderRegion.Inside
      omega
    rw [if_pos overflows, if_neg outside]
  · have below : region.offset.toNat + region.size.toNat < 2 ^ width := by
      simpa [BitVec.uaddOverflow] using overflows
    have sum : (region.offset + region.size).toNat =
        region.offset.toNat + region.size.toNat := by
      rw [BitVec.toNat_add, Nat.mod_eq_of_lt below]
    rw [if_neg overflows, sum]
    by_cases inside : region.Inside
    · rw [if_neg (Nat.not_lt.mpr inside), if_pos inside]
    · rw [if_pos (Nat.lt_of_not_le inside), if_neg inside]

theorem toInt_of_inside (inside : region.Inside) : toInt region.size = region.size.toNat := by
  have small : region.size.toNat ≤ 4096 := by
    unfold LenderRegion.Inside pageSize at inside
    omega
  have noWrap : region.size.toNat % 2 ^ 32 = region.size.toNat := Nat.mod_eq_of_lt (by omega)
  rw [toInt, BitVec.toInt_eq_toNat_cond, BitVec.toNat_ofNat, noWrap, if_pos (by omega)]

theorem payload_size (wide : pageSize < 2 ^ width) (msgSize : Nat)
    (fits : data.length ≤ maxWrite) (size : BitVec width) :
    BitVec.ofNat width (msgSize + data.length) - BitVec.ofNat width msgSize = size ↔
      data.length = size.toNat := by
  have small : data.length < 2 ^ width := by
    unfold maxWrite pageSize at *
    omega
  have difference : BitVec.ofNat width (msgSize + data.length) - BitVec.ofNat width msgSize =
      BitVec.ofNat width data.length := by
    rw [BitVec.ofNat_add, BitVec.add_comm, BitVec.add_sub_cancel]
  rw [difference]
  constructor
  · rintro rfl
    rw [BitVec.toNat_ofNat, Nat.mod_eq_of_lt small]
  · intro same
    rw [same, BitVec.ofNat_toNat, BitVec.setWidth_eq]

/-- The reference that a command asks for, as far as it could be created. -/
def State.reference (state : State) : LenderCommand → Option Memref
  | .lendBss => state.bssMemref
  | .lendRo => state.roMemref
  | .lendRw => state.rwMemref
  | _ => none

def LenderCommand.lends : LenderCommand → Bool
  | .lendBss | .lendRo | .lendRw => true
  | _ => false

def Received.write? (received : Received width) : Option Write :=
  let region := received.msg.region
  if received.msg.cmd = .writeBss ∧ received.data.length = region.size.toNat ∧ region.Inside then
    some ⟨region.offset.toNat, received.data⟩
  else none

def Received.read? (received : Received width) : Option (Nat × Nat) :=
  let region := received.msg.region
  if received.msg.cmd = .readBss ∧ region.Inside then
    some (region.offset.toNat, region.size.toNat)
  else none

theorem accesses_of_reference {received : Received width} {memref : Memref}
    (found : state.reference received.msg.cmd = some memref) :
    received.write? = none ∧ received.read? = none := by
  unfold Received.write? Received.read?
  cases cmd : received.msg.cmd <;> simp [cmd, State.reference] at found ⊢

theorem write_of_read {received : Received width} {access : Nat × Nat}
    (reads : received.read? = some access) : received.write? = none := by
  unfold Received.write? Received.read? at *
  cases cmd : received.msg.cmd <;> simp [cmd] at reads ⊢

theorem read_of_write {received : Received width} {write : Write}
    (writes : received.write? = some write) : received.read? = none := by
  unfold Received.write? Received.read? at *
  cases cmd : received.msg.cmd <;> simp [cmd] at writes ⊢

structure Stored (state : State) (name : PageName) (write : Write) (post : State) : Prop where
  page : (post.pages name).contents =
    (state.pages name).contents.write write.addr write.bytes
  others : ∀ other, other ≠ name → post.pages other = state.pages other
  references : post.reference = state.reference
  lent : post.lent = state.lent

inductive Effect (state : State) (chan : Handle) (io : Io width) : State → Output → Prop
  | recvFailed {rc : Int} : io.recv = .error rc → Effect state chan io state ⟨rc, []⟩
  | refused {received : Received width} : io.recv = .ok received → received.write? = none →
      received.read? = none → state.reference received.msg.cmd = none →
      Effect state chan io state ⟨-1, []⟩
  | lent {received : Received width} {memref : Memref} : io.recv = .ok received →
      state.reference received.msg.cmd = some memref → io.send = .ok () →
      Effect state chan io { state with lent := memref :: state.lent } ⟨0, [.lent chan memref]⟩
  | read {received : Received width} {offset len : Nat} : io.recv = .ok received →
      received.read? = some (offset, len) → io.send = .ok () →
      Effect state chan io state ⟨0, [.sent chan ((state.pages .bss).contents.read offset len)]⟩
  | written {received : Received width} {write : Write} {post : State} : io.recv = .ok received →
      received.write? = some write → Stored state .bss write post → io.send = .ok () →
      Effect state chan io post ⟨0, [.sent chan []]⟩
  | writtenUnanswered {received : Received width} {write : Write} {post : State} {rc : Int} :
      io.recv = .ok received → received.write? = some write → Stored state .bss write post →
      io.send = .error rc → Effect state chan io post ⟨rc, []⟩
  | unanswered {received : Received width} {rc rc' : Int} : io.recv = .ok received →
      received.write? = none → io.send = .error rc' → rc < 0 → Effect state chan io state ⟨rc, []⟩

def Io.Documented (io : Io width) : Prop :=
  (∀ rc, io.recv = .error rc → rc < 0) ∧ ∀ rc, io.send = .error rc → rc < 0

theorem lenderLend_eq (state : State) (chan : Handle) (cmd : LenderCommand) (io : Io width) :
    lenderLend state chan cmd io = sendReference state chan io (state.reference cmd) := by
  cases cmd <;> rfl

theorem lend_effect (documented : io.Documented) {received : Received width}
    (recv : io.recv = .ok received) (lends : received.msg.cmd.lends = true) :
    Effect state chan io (lenderLend state chan received.msg.cmd io).finish.state
      ⟨(lenderLend state chan received.msg.cmd io).finish.rc,
        (lenderLend state chan received.msg.cmd io).finish.actions⟩ := by
  have noWrite : received.write? = none := by
    unfold Received.write?
    cases cmd : received.msg.cmd <;> simp [cmd, LenderCommand.lends] at lends ⊢
  have noRead : received.read? = none := by
    unfold Received.read?
    cases cmd : received.msg.cmd <;> simp [cmd, LenderCommand.lends] at lends ⊢
  rw [lenderLend_eq]
  cases found : state.reference received.msg.cmd with
  | none => exact .refused recv noWrite noRead found
  | some memref =>
      cases send : io.send with
      | error rc =>
          have negative := documented.2 rc send
          simp only [sendReference, Io.sendMsg, send, Handled.finish, negative, if_true]
          exact .unanswered recv noWrite send negative
      | ok _ =>
          simp only [sendReference, Io.sendMsg, send, Handled.finish, reduceCtorEq, if_false]
          exact .lent recv found send

theorem lenderReadBss_effect (wide : pageSize < 2 ^ width) (documented : io.Documented)
    {received : Received width} (recv : io.recv = .ok received)
    (cmd : received.msg.cmd = .readBss) :
    ∃ handled, lenderReadBss state chan received.msg.region io = .ok handled ∧
      Effect state chan io handled.finish.state ⟨handled.finish.rc, handled.finish.actions⟩ := by
  have noWrite : received.write? = none := by simp [Received.write?, cmd]
  have noReference : state.reference received.msg.cmd = none := by rw [cmd]; rfl
  by_cases inside : received.msg.region.Inside
  · have reads : received.read? = some (received.msg.region.offset.toNat,
        received.msg.region.size.toNat) := by simp [Received.read?, cmd, inside]
    simp only [lenderReadBss, lenderCheckRegion_eq wide, if_pos inside, ne_eq,
      not_true_eq_false, if_false, Page.read_eq inside, ok_bind, Store.length_read,
      toInt_of_inside inside]
    cases send : io.send with
    | error rc =>
        have negative := documented.2 rc send
        have differs : rc ≠ (received.msg.region.size.toNat : Int) := by omega
        simp only [Io.sendMsg, send, differs, not_false_eq_true, if_true]
        exact ⟨_, rfl, .unanswered recv noWrite send (show (-1 : Int) < 0 by decide)⟩
    | ok _ =>
        simp only [Io.sendMsg, send, not_true_eq_false, if_false]
        exact ⟨_, rfl, .read recv reads send⟩
  · have noRead : received.read? = none := by simp [Received.read?, inside]
    refine ⟨⟨-1, state, []⟩, ?_, .refused recv noWrite noRead noReference⟩
    simp [lenderReadBss, lenderCheckRegion_eq wide, inside]

theorem stored_update {name : PageName} {write : Write} {written : Page}
    (contents : written.contents =
      (state.pages name).contents.write write.addr write.bytes) :
    Stored state name write { state with pages := Function.update state.pages name written } where
  page := by simp [contents]
  others other ne := Function.update_of_ne ne ..
  references := rfl
  lent := rfl

theorem lenderWriteBss_effect (wide : pageSize < 2 ^ width) (documented : io.Documented)
    {received : Received width} (recv : io.recv = .ok received)
    (cmd : received.msg.cmd = .writeBss)
    (sameSize : received.data.length = received.msg.region.size.toNat) :
    ∃ handled, lenderWriteBss state chan received.msg.region received.data io = .ok handled ∧
      Effect state chan io handled.finish.state ⟨handled.finish.rc, handled.finish.actions⟩ := by
  have noRead : received.read? = none := by simp [Received.read?, cmd]
  have noReference : state.reference received.msg.cmd = none := by rw [cmd]; rfl
  by_cases inside : received.msg.region.Inside
  · have writes : received.write? =
        some ⟨received.msg.region.offset.toNat, received.data⟩ := by
      simp [Received.write?, cmd, sameSize, inside]
    have fits : received.msg.region.offset.toNat + received.data.length ≤ pageSize :=
      sameSize ▸ inside
    obtain ⟨written, result, contents⟩ : ∃ written, (state.pages .bss).write _ _ = .ok written ∧ _ :=
      Page.write_eq fits
    have stored : Stored state .bss ⟨received.msg.region.offset.toNat, received.data⟩ _ :=
      stored_update contents
    simp only [lenderWriteBss, lenderCheckRegion_eq wide, if_pos inside, ne_eq,
      not_true_eq_false, if_false, ← sameSize, Nat.lt_irrefl, List.take_length, result, ok_bind]
    cases send : io.send with
    | error rc =>
        have negative := documented.2 rc send
        simp only [Io.sendMsg, send]
        refine ⟨_, rfl, ?_⟩
        simp only [Handled.finish, negative, if_true]
        exact .writtenUnanswered recv writes stored send
    | ok _ =>
        simp only [Io.sendMsg, send]
        exact ⟨_, rfl, .written recv writes stored send⟩
  · have noWrite : received.write? = none := by simp [Received.write?, inside]
    refine ⟨⟨-1, state, []⟩, ?_, .refused recv noWrite noRead noReference⟩
    simp [lenderWriteBss, lenderCheckRegion_eq wide, inside]

/-- Every message but the one that ends the lender has one of these effects; no access
lies outside a page or reads bytes that were not received. -/
theorem lenderOnMessage_effect (wide : pageSize < 2 ^ width) (documented : io.Documented)
    (msgSize : Nat) (state : State) (chan : Handle) :
    (lenderOnMessage msgSize state chan io = .error .exit ∧
      ∃ received, io.recv = .ok received ∧ received.msg.cmd = .suicide) ∨
    ∃ handled, lenderOnMessage msgSize state chan io = .ok handled ∧
      Effect state chan io handled.state ⟨handled.rc, handled.actions⟩ := by
  cases recv : io.recv with
  | error rc => exact .inr ⟨⟨rc, state, []⟩, by simp [lenderOnMessage, recv], .recvFailed recv⟩
  | ok received =>
      obtain ⟨msg, data, fits⟩ := received
      cases cmd : msg.cmd with
      | lendBss | lendRo | lendRw =>
          refine .inr ⟨(lenderLend state chan msg.cmd io).finish, ?_, ?_⟩
          · simp only [lenderOnMessage, recv, cmd]
          · exact lend_effect documented recv (by simp [cmd, LenderCommand.lends])
      | suicide => exact .inl ⟨by simp [lenderOnMessage, recv, cmd], _, rfl, cmd⟩
      | readBss =>
          obtain ⟨handled, result, effect⟩ := lenderReadBss_effect wide documented recv cmd
          exact .inr ⟨_, by simp [lenderOnMessage, recv, cmd, result], effect⟩
      | writeBss =>
          by_cases sameSize : data.length = msg.region.size.toNat
          · have noMismatch := (payload_size wide msgSize fits _).mpr sameSize
            obtain ⟨handled, result, effect⟩ :=
              lenderWriteBss_effect wide documented recv cmd sameSize
            exact .inr ⟨_, by simp [lenderOnMessage, recv, cmd, noMismatch, result], effect⟩
          · have mismatch := (payload_size wide msgSize fits msg.region.size).not.mpr
              sameSize
            refine .inr ⟨⟨-1, state, []⟩, ?_, .refused recv ?_ ?_ ?_⟩
            · simp only [lenderOnMessage, recv, cmd, ne_eq, mismatch, not_false_eq_true, if_true]
            · simp [Received.write?, sameSize]
            · simp [Received.read?, cmd]
            · rw [cmd]; rfl
      | other =>
          refine .inr ⟨⟨-1, state, []⟩, by simp [lenderOnMessage, recv, cmd], .refused recv ?_ ?_ ?_⟩
          · simp [Received.write?, cmd]
          · simp [Received.read?, cmd]
          · rw [cmd]; rfl

section Runs

variable {msgSize : Nat} {start : State} {history : List (Step State (Event width) Output)}
  {bssCreated roCreated rwCreated : Bool}

def Event.write? (name : PageName) : Event width → Option Write
  | .message _ io =>
      match io.recv with
      | .error _ => none
      | .ok received => if name = .bss then received.write? else none
  | .store memref offset bytes => if memref.page = name then some ⟨offset, bytes⟩ else none

def writesTo (name : PageName) (history : List (Step State (Event width) Output)) : List Write :=
  history.filterMap fun step => step.event.write? name

/-- A page as the writes of a run have left it. -/
def memory (name : PageName) (history : List (Step State (Event width) Output)) : Store :=
  latest (initialPage name).contents (writesTo name history)

theorem Effect.contents {post : State} {output : Output}
    (effect : Effect state chan io post output) (name : PageName) :
    (post.pages name).contents =
      match (Event.message chan io).write? name with
      | none => (state.pages name).contents
      | some write => (state.pages name).contents.write write.addr write.bytes := by
  cases effect with
  | recvFailed recv => simp [Event.write?, recv]
  | refused recv noWrite | unanswered recv noWrite => simp [Event.write?, recv, noWrite]
  | lent recv found => simp [Event.write?, recv, (accesses_of_reference found).1]
  | read recv reads => simp [Event.write?, recv, write_of_read reads]
  | written recv writes stored | writtenUnanswered recv writes stored =>
      by_cases isBss : name = .bss
      · subst isBss
        simp [Event.write?, recv, writes, stored.page]
      · simp [Event.write?, recv, isBss, stored.others name isBss]

theorem performs_effect (wide : pageSize < 2 ^ width) {step : Step State (Event width) Output}
    (performs : (lender width msgSize start).Performs step) {chan : Handle} {io : Io width}
    (message : step.event = .message chan io) :
    Effect step.pre chan io step.post step.output := by
  obtain ⟨pre, event, output, post⟩ := step
  obtain ⟨enabled, handled⟩ := performs
  obtain rfl : event = .message chan io := message
  have handled : dispatch msgSize pre (.message chan io) = .ok (post, output) := handled
  rcases lenderOnMessage_effect wide enabled msgSize pre chan with
    ⟨exits, -⟩ | ⟨finished, result, effect⟩
  · simp [dispatch, exits] at handled
  · simp only [dispatch, result, ok_bind, Except.ok.injEq, Prod.mk.injEq] at handled
    obtain ⟨rfl, rfl⟩ := handled
    exact effect

theorem store_stored {memref : Memref} {offset : Nat} {bytes : List UInt8} {post : State}
    {output : Output} (inside : offset + bytes.length ≤ pageSize)
    (handled : dispatch msgSize state (.store memref offset bytes : Event width) =
      .ok (post, output)) :
    Stored state memref.page ⟨offset, bytes⟩ post ∧ output.actions = [] := by
  obtain ⟨written, result, contents⟩ : ∃ written, (state.pages memref.page).write _ _ =
      .ok written ∧ _ := Page.write_eq inside
  simp only [dispatch, result, ok_bind, Except.ok.injEq, Prod.mk.injEq] at handled
  obtain ⟨rfl, rfl⟩ := handled
  exact ⟨stored_update contents, rfl⟩

theorem contents_of_exec (wide : pageSize < 2 ^ width)
    (initially : start.pages = initialPage)
    (run : Exec (lender width msgSize start) history state) (name : PageName) :
    (state.pages name).contents = memory name history := by
  induction run with
  | start => rw [lender, initially]; rfl
  | @step history step run performs inductionHypothesis =>
      have change : (step.post.pages name).contents =
          match step.event.write? name with
          | none => (step.pre.pages name).contents
          | some write => (step.pre.pages name).contents.write write.addr write.bytes := by
        cases event : step.event with
        | message chan io => exact (performs_effect wide performs event).contents name
        | store memref offset bytes =>
            obtain ⟨pre, event', output, post⟩ := step
            obtain rfl : event' = .store memref offset bytes := event
            have handled : dispatch msgSize pre (.store memref offset bytes : Event width) =
                .ok (post, output) := performs.2
            obtain ⟨stored, -⟩ := store_stored performs.1.2.2 handled
            by_cases isPage : memref.page = name
            · subst isPage
              simp [Event.write?, stored.page]
            · simp only [Event.write?, isPage, if_false]
              rw [stored.others name (Ne.symm isPage)]
      rw [change, inductionHypothesis]
      simp only [memory, writesTo, List.filterMap_cons]
      cases step.event.write? name with
      | none => rfl
      | some write => rw [latest_cons]

theorem init_started (started : init bssCreated roCreated rwCreated = some start) :
    start.pages = initialPage ∧ start.lent = [] ∧
      (∀ cmd memref, start.reference cmd = some memref →
        memref.prot = .readWrite → memref.page ≠ .ro) := by
  unfold init at started
  split at started
  · cases started
  simp only at started
  split at started
  · cases started
  obtain rfl := Option.some.inj started
  refine ⟨rfl, rfl, ?_⟩
  intro cmd memref found writable
  cases cmd <;> simp only [State.reference, Option.ite_none_right_eq_some, Option.some.injEq,
    reduceCtorEq] at found
  · simp [← found]
  · rw [← found.2] at writable
    cases writable
  · simp [← found]

theorem Effect.answer {post : State} {output : Output} (effect : Effect state chan io post output)
    {received : Received width} (recv : io.recv = .ok received) :
    (∀ offset len, received.read? = some (offset, len) → io.send = .ok () → post = state ∧
      output = ⟨0, [.sent chan ((state.pages .bss).contents.read offset len)]⟩) ∧
    (∀ write, received.write? = some write → io.send = .ok () →
      output = ⟨0, [.sent chan []]⟩) ∧
    (received.read? = none → received.write? = none → state.reference received.msg.cmd = none →
      post = state ∧ output.actions = []) := by
  cases effect with
  | recvFailed fails =>
      rw [fails] at recv
      cases recv
  | refused same noWrite noRead =>
      obtain rfl := Except.ok.inj (same.symm.trans recv)
      simp [noWrite, noRead]
  | lent same found =>
      obtain rfl := Except.ok.inj (same.symm.trans recv)
      obtain ⟨noWrite, noRead⟩ := accesses_of_reference found
      simp [noWrite, noRead, found]
  | read same reads =>
      obtain rfl := Except.ok.inj (same.symm.trans recv)
      simp [write_of_read reads, reads]
  | written same writes stored sent =>
      obtain rfl := Except.ok.inj (same.symm.trans recv)
      simp [read_of_write writes, writes]
  | writtenUnanswered same writes stored fails =>
      obtain rfl := Except.ok.inj (same.symm.trans recv)
      simp [read_of_write writes, writes, fails]
  | unanswered same noWrite fails =>
      obtain rfl := Except.ok.inj (same.symm.trans recv)
      simp [noWrite, fails]

/-- In every run the pages are what the latest writes have left, whether these came in
messages or through lent references, and a read is answered from there.  No message, with
any region, makes the lender access memory outside its page or that it has not received;
a message that asks for nothing it may have changes nothing and gets no answer. -/
theorem lender_is_memory (wide : pageSize < 2 ^ width)
    (started : init bssCreated roCreated rwCreated = some start)
    (run : Exec (lender width msgSize start) history state) :
    (∀ name, (state.pages name).contents = memory name history) ∧
    ∀ chan (io : Io width), io.Documented →
      (∀ halt, lenderOnMessage msgSize state chan io = .error halt → halt = .exit ∧
        ∃ received, io.recv = .ok received ∧ received.msg.cmd = .suicide) ∧
      ∀ received handled, io.recv = .ok received →
        lenderOnMessage msgSize state chan io = .ok handled →
        (∀ offset len, received.read? = some (offset, len) → io.send = .ok () →
          handled = ⟨0, state, [.sent chan ((memory .bss history).read offset len)]⟩) ∧
        (∀ write, received.write? = some write → io.send = .ok () →
          handled.rc = 0 ∧ handled.actions = [.sent chan []]) ∧
        (received.read? = none → received.write? = none →
          state.reference received.msg.cmd = none →
          handled.state = state ∧ handled.actions = []) := by
  have contents := contents_of_exec wide (init_started started).1 run
  refine ⟨contents, fun chan io documented => ?_⟩
  rcases lenderOnMessage_effect wide documented msgSize state chan with
    ⟨exits, suicide⟩ | ⟨finished, result, effect⟩
  · refine ⟨fun halt stopped => ?_, fun received handled _ returned => ?_⟩
    · rw [exits] at stopped
      exact ⟨(Except.error.inj stopped).symm, suicide⟩
    · rw [exits] at returned
      cases returned
  · refine ⟨fun halt stopped => ?_, fun received handled recv returned => ?_⟩
    · rw [result] at stopped
      cases stopped
    · obtain rfl := Except.ok.inj (result.symm.trans returned)
      obtain ⟨read, write, refused⟩ := effect.answer recv
      refine ⟨fun offset len reads sent => ?_, fun other writes sent => ?_, refused⟩
      · obtain ⟨same, output⟩ := read offset len reads sent
        obtain ⟨rc, post, actions⟩ := finished
        simp only [Output.mk.injEq] at output same
        rw [same, output.1, output.2, ← contents .bss]
      · have output := write other writes sent
        simp only [Output.mk.injEq] at output
        exact output

def freshState : State :=
  ⟨initialPage, some ⟨.bss, .readWrite⟩, some ⟨.ro, .readOnly⟩, some ⟨.rw, .readWrite⟩, []⟩

def writeIo : Io 64 := ⟨.ok ⟨⟨.writeBss, ⟨1, 2⟩⟩, [7, 8], by decide⟩, .ok ()⟩

def writtenPage : Page := ⟨spliced zeroPage.bytes [7, 8] 1, by
  rw [length_spliced (by rw [zeroPage.size]; decide), zeroPage.size]⟩

def writeStep : Step State (Event 64) Output :=
  ⟨freshState, .message 5 writeIo, ⟨0, [.sent 5 []]⟩,
    { freshState with pages := Function.update initialPage .bss writtenPage }⟩

theorem writeStep_exec : Exec (lender 64 24 freshState) [writeStep] writeStep.post :=
  Exec.start.step ⟨⟨by simp [writeIo], by simp [writeIo]⟩, rfl⟩

theorem lender_is_memory_written : (writeStep.post.pages .bss).contents.read 1 2 = [7, 8] := by
  rw [(lender_is_memory (by decide) (show init true true true = some freshState from rfl)
    writeStep_exec).1 .bss]
  rfl

theorem Effect.lending {post : State} {output : Output}
    (effect : Effect state chan io post output) :
    post.reference = state.reference ∧
      (∀ memref ∈ post.lent, memref ∈ state.lent ∨ .lent chan memref ∈ output.actions) ∧
      ∀ other memref, .lent other memref ∈ output.actions → other = chan ∧
        ∃ received, io.recv = .ok received ∧ state.reference received.msg.cmd = some memref := by
  cases effect with
  | recvFailed | refused | unanswered | read => exact ⟨rfl, fun _ => .inl, by simp⟩
  | @lent received memref recv found =>
      refine ⟨rfl, ?_, ?_⟩
      · intro other member
        rcases List.mem_cons.mp member with rfl | before
        · exact .inr (by simp)
        · exact .inl before
      · intro other memref' member
        simp only [List.mem_singleton, Action.lent.injEq] at member
        exact ⟨member.1, received, recv, member.2 ▸ found⟩
  | written _ _ stored | writtenUnanswered _ _ stored =>
      exact ⟨stored.references, fun memref member => .inl (stored.lent ▸ member), by simp⟩

def LentIn (history : List (Step State (Event width) Output)) (memref : Memref) : Prop :=
  ∃ step ∈ history, ∃ chan, .lent chan memref ∈ step.output.actions

structure Lending (start : State) (history : List (Step State (Event width) Output))
    (state : State) : Prop where
  references : state.reference = start.reference
  lent : ∀ memref ∈ state.lent, LentIn history memref
  asked : ∀ step ∈ history, ∀ chan memref, .lent chan memref ∈ step.output.actions →
    ∃ io received, step.event = .message chan io ∧ io.recv = .ok received ∧
      start.reference received.msg.cmd = some memref

theorem LentIn.cons {step : Step State (Event width) Output} {memref : Memref}
    (lent : LentIn history memref) : LentIn (step :: history) memref := by
  obtain ⟨earlier, member, sent⟩ := lent
  exact ⟨earlier, List.mem_cons_of_mem step member, sent⟩

theorem lending_of_exec (wide : pageSize < 2 ^ width) (nothingLent : start.lent = [])
    (run : Exec (lender width msgSize start) history state) : Lending start history state := by
  apply run.rule fun history state => Lending start history state
  · exact ⟨rfl, by simp [lender, nothingLent], by simp⟩
  · intro history step _ lending performs
    cases event : step.event with
    | message chan io =>
        obtain ⟨references, lent, asked⟩ := (performs_effect wide performs event).lending
        refine ⟨references.trans lending.references, ?_, ?_⟩
        · intro memref member
          rcases lent memref member with before | now
          · exact (lending.lent memref before).cons
          · exact ⟨step, List.mem_cons_self, chan, now⟩
        · intro other member chan' memref sent
          rcases List.mem_cons.mp member with rfl | earlier
          · obtain ⟨rfl, received, recv, found⟩ := asked chan' memref sent
            exact ⟨io, received, event, recv, lending.references ▸ found⟩
          · exact lending.asked other earlier chan' memref sent
    | store memref offset bytes =>
        obtain ⟨pre, event', output, post⟩ := step
        obtain rfl : event' = .store memref offset bytes := event
        have handled : dispatch msgSize pre (.store memref offset bytes : Event width) =
            .ok (post, output) := performs.2
        obtain ⟨stored, silent⟩ := store_stored performs.1.2.2 handled
        refine ⟨stored.references.trans lending.references, ?_, ?_⟩
        · intro other member
          exact (lending.lent other (stored.lent ▸ member)).cons
        · intro other member chan memref' sent
          rcases List.mem_cons.mp member with rfl | earlier
          · simp [silent] at sent
          · exact lending.asked other earlier chan memref' sent

/-- Every reference that leaves the lender is the one to the page that the message asked
for.  Other processes write to a page only after a writable reference to it was sent, and
nothing ever writes to the page that is lent read-only. -/
theorem pages_shared_by_reference (wide : pageSize < 2 ^ width)
    (started : init bssCreated roCreated rwCreated = some start)
    (run : Exec (lender width msgSize start) history state) :
    (∀ step ∈ history, ∀ chan memref, .lent chan memref ∈ step.output.actions →
      ∃ io received, step.event = .message chan io ∧ io.recv = .ok received ∧
        start.reference received.msg.cmd = some memref) ∧
    (∀ later step earlier memref offset bytes, history = later ++ step :: earlier →
      step.event = .store memref offset bytes → LentIn earlier memref ∧ memref.page ≠ .ro) ∧
    (state.pages .ro).contents = (initialPage .ro).contents := by
  obtain ⟨pages, nothingLent, writable⟩ := init_started started
  have stores : ∀ later step earlier memref offset bytes, history = later ++ step :: earlier →
      step.event = .store memref offset bytes → LentIn earlier memref ∧ memref.page ≠ .ro := by
    rintro later step earlier memref offset bytes rfl event
    obtain ⟨before, performs, -⟩ := run.at_step
    have lending := lending_of_exec wide nothingLent before
    have enabled : Enabled step.pre (.store memref offset bytes : Event width) :=
      event ▸ performs.1
    have lent := lending.lent memref enabled.1
    obtain ⟨sending, member, chan, sent⟩ := lent
    obtain ⟨io, received, -, -, found⟩ := lending.asked sending member chan memref sent
    exact ⟨⟨sending, member, chan, sent⟩, writable _ memref found enabled.2.1⟩
  refine ⟨(lending_of_exec wide nothingLent run).asked, stores, ?_⟩
  have untouched : writesTo .ro history = [] := by
    rw [writesTo, List.filterMap_eq_nil_iff]
    intro step member
    cases event : step.event with
    | message chan io => cases recv : io.recv <;> simp [Event.write?, recv]
    | store memref offset bytes =>
        obtain ⟨later, earlier, split⟩ := List.append_of_mem member
        simp [Event.write?, (stores later step earlier memref offset bytes split event).2]
  rw [contents_of_exec wide pages run, memory, untouched, latest_nil]

/-- The client on channel 5 is sent a reference to the writable page, and stores there. -/
def lendStep : Step State (Event 64) Output :=
  ⟨freshState, .message 5 ⟨.ok ⟨⟨.lendRw, ⟨0, 0⟩⟩, [], by decide⟩, .ok ()⟩,
    ⟨0, [.lent 5 ⟨.rw, .readWrite⟩]⟩, { freshState with lent := [⟨.rw, .readWrite⟩] }⟩

def storeStep : Step State (Event 64) Output :=
  ⟨lendStep.post, .store ⟨.rw, .readWrite⟩ 1 [7, 8], ⟨0, []⟩,
    { lendStep.post with
      pages := Function.update initialPage .rw ⟨spliced onePage.bytes [7, 8] 1, by
        rw [length_spliced (by rw [onePage.size]; decide), onePage.size]⟩ }⟩

theorem storeStep_exec : Exec (lender 64 24 freshState) [storeStep, lendStep] storeStep.post := by
  have lends : Exec (lender 64 24 freshState) [lendStep] lendStep.post :=
    Exec.start.step ⟨⟨by simp, by simp⟩, rfl⟩
  exact lends.step ⟨⟨by simp [storeStep, lendStep], rfl, by decide⟩, rfl⟩

theorem pages_shared_by_reference_stored :
    LentIn [lendStep] ⟨.rw, .readWrite⟩ ∧
      (storeStep.post.pages .ro).contents = (initialPage .ro).contents := by
  obtain ⟨-, stores, untouched⟩ := pages_shared_by_reference (by decide)
    (show init true true true = some freshState from rfl) storeStep_exec
  exact ⟨(stores [] storeStep [lendStep] _ _ _ rfl rfl).1, untouched⟩

end Runs

end TrustyApp.MemrefTest
