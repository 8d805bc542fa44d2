import Mathlib.Logic.Function.Basic
import Mathlib.Data.Option.Basic

/-!
# Channels and their contexts

A server allocates one context for each connection and registers its address as
the cookie of the channel; every later event of the channel comes with that
cookie.  Addresses and channel handles may be reused once freed or closed.
-/

namespace Ipc

abbrev Addr := Nat

abbrev Handle := Nat

inductive ChanState
  | closed
  | accepted
  | attached (cookie : Addr)
  deriving DecidableEq

/-- The live contexts by address, and the state of every channel handle. -/
structure Table (Ctx : Type*) where
  ctxs : Addr → Option Ctx
  chans : Handle → ChanState

namespace Table

variable {Ctx : Type*}

def empty : Table Ctx := ⟨fun _ => none, fun _ => .closed⟩

def put (table : Table Ctx) (a : Addr) (ctx : Ctx) : Table Ctx :=
  { table with ctxs := Function.update table.ctxs a (some ctx) }

def free (table : Table Ctx) (a : Addr) : Table Ctx :=
  { table with ctxs := Function.update table.ctxs a none }

def setChan (table : Table Ctx) (h : Handle) (chan : ChanState) : Table Ctx :=
  { table with chans := Function.update table.chans h chan }

def close (table : Table Ctx) (h : Handle) : Table Ctx := table.setChan h .closed

@[simp] theorem put_chans (table : Table Ctx) (a : Addr) (ctx : Ctx) :
    (table.put a ctx).chans = table.chans := rfl

@[simp] theorem free_chans (table : Table Ctx) (a : Addr) :
    (table.free a).chans = table.chans := rfl

@[simp] theorem setChan_ctxs (table : Table Ctx) (h : Handle) (chan : ChanState) :
    (table.setChan h chan).ctxs = table.ctxs := rfl

@[simp] theorem close_ctxs (table : Table Ctx) (h : Handle) :
    (table.close h).ctxs = table.ctxs := rfl

@[simp] theorem put_ctxs_self (table : Table Ctx) (a : Addr) (ctx : Ctx) :
    (table.put a ctx).ctxs a = some ctx := by simp [put]

theorem put_ctxs_of_ne (table : Table Ctx) {a b : Addr} (ctx : Ctx) (ne : b ≠ a) :
    (table.put a ctx).ctxs b = table.ctxs b := by simp [put, ne]

@[simp] theorem free_ctxs_self (table : Table Ctx) (a : Addr) :
    (table.free a).ctxs a = none := by simp [free]

theorem free_ctxs_of_ne (table : Table Ctx) {a b : Addr} (ne : b ≠ a) :
    (table.free a).ctxs b = table.ctxs b := by simp [free, ne]

@[simp] theorem setChan_chans_self (table : Table Ctx) (h : Handle) (chan : ChanState) :
    (table.setChan h chan).chans h = chan := by simp [setChan]

theorem setChan_chans_of_ne (table : Table Ctx) {h k : Handle} (chan : ChanState)
    (ne : k ≠ h) : (table.setChan h chan).chans k = table.chans k := by simp [setChan, ne]

@[simp] theorem close_chans_self (table : Table Ctx) (h : Handle) :
    (table.close h).chans h = .closed := by simp [close]

theorem close_chans_of_ne (table : Table Ctx) {h k : Handle} (ne : k ≠ h) :
    (table.close h).chans k = table.chans k := by simp [close, setChan_chans_of_ne, ne]

/-- Accepting a channel and closing it again leaves no trace. -/
theorem close_setChan_of_closed {table : Table Ctx} {h : Handle} {chan : ChanState}
    (closed : table.chans h = .closed) : (table.setChan h chan).close h = table := by
  simp [close, setChan, ← closed]

theorem free_put_of_none {table : Table Ctx} {a : Addr} {ctx : Ctx}
    (unused : table.ctxs a = none) : (table.put a ctx).free a = table := by
  simp [put, free, ← unused]

theorem undo_connect {table : Table Ctx} {h : Handle} {a : Addr} {chan : ChanState} {ctx : Ctx}
    (closed : table.chans h = .closed) (unused : table.ctxs a = none) :
    (((table.setChan h chan).put a ctx).free a).close h = table := by
  have stillUnused : (table.setChan h chan).ctxs a = none := by rw [setChan_ctxs, unused]
  rw [free_put_of_none stillUnused, close_setChan_of_closed closed]

/-- Between two events, contexts and open channels correspond one to one. -/
structure WellFormed (chanOf : Ctx → Handle) (table : Table Ctx) : Prop where
  attached : ∀ h a, table.chans h = .attached a →
    ∃ ctx, table.ctxs a = some ctx ∧ chanOf ctx = h
  owned : ∀ a ctx, table.ctxs a = some ctx → table.chans (chanOf ctx) = .attached a

theorem WellFormed.empty (chanOf : Ctx → Handle) :
    (empty : Table Ctx).WellFormed chanOf where
  attached h a state := by simp [Table.empty] at state
  owned a ctx live := by simp [Table.empty] at live

variable {chanOf : Ctx → Handle} {table : Table Ctx} {a : Addr} {ctx : Ctx}

theorem WellFormed.unique (wellFormed : table.WellFormed chanOf) {b : Addr} {other : Ctx}
    (live : table.ctxs a = some ctx) (otherLive : table.ctxs b = some other)
    (sameChan : chanOf other = chanOf ctx) : b = a := by
  have first := wellFormed.owned a ctx live
  have second := wellFormed.owned b other otherLive
  rw [sameChan, first] at second
  exact (ChanState.attached.inj second).symm

theorem WellFormed.connect (wellFormed : table.WellFormed chanOf) (ctx : Ctx)
    (closed : table.chans (chanOf ctx) = .closed) (unused : table.ctxs a = none) :
    ((table.put a ctx).setChan (chanOf ctx) (.attached a)).WellFormed chanOf where
  attached h b state := by
    by_cases same : h = chanOf ctx
    · subst same
      rw [setChan_chans_self, ChanState.attached.injEq] at state
      subst state
      exact ⟨ctx, by simp, rfl⟩
    · rw [setChan_chans_of_ne _ _ same, put_chans] at state
      obtain ⟨other, live, chan⟩ := wellFormed.attached h b state
      have ne : b ≠ a := by
        rintro rfl
        simp [unused] at live
      exact ⟨other, by rw [setChan_ctxs, put_ctxs_of_ne _ _ ne, live], chan⟩
  owned b other live := by
    by_cases same : b = a
    · subst same
      rw [setChan_ctxs, put_ctxs_self, Option.some.injEq] at live
      subst live
      simp
    · rw [setChan_ctxs, put_ctxs_of_ne _ _ same] at live
      have state := wellFormed.owned b other live
      have ne : chanOf other ≠ chanOf ctx := by
        intro equal
        rw [equal, closed] at state
        exact ChanState.noConfusion state
      rw [setChan_chans_of_ne _ _ ne, put_chans, state]

theorem WellFormed.replace (wellFormed : table.WellFormed chanOf)
    (live : table.ctxs a = some ctx) {other : Ctx} (sameChan : chanOf other = chanOf ctx) :
    (table.put a other).WellFormed chanOf where
  attached h b state := by
    obtain ⟨found, foundLive, chan⟩ := wellFormed.attached h b state
    by_cases same : b = a
    · subst same
      rw [live, Option.some.injEq] at foundLive
      subst foundLive
      exact ⟨other, by simp, sameChan.trans chan⟩
    · exact ⟨found, by rw [put_ctxs_of_ne _ _ same, foundLive], chan⟩
  owned b found foundLive := by
    by_cases same : b = a
    · subst same
      rw [put_ctxs_self, Option.some.injEq] at foundLive
      subst foundLive
      rw [sameChan]
      exact wellFormed.owned b ctx live
    · rw [put_ctxs_of_ne _ _ same] at foundLive
      exact wellFormed.owned b found foundLive

theorem WellFormed.shutdown (wellFormed : table.WellFormed chanOf)
    (live : table.ctxs a = some ctx) :
    ((table.close (chanOf ctx)).free a).WellFormed chanOf where
  attached h b state := by
    have neChan : h ≠ chanOf ctx := by
      rintro rfl
      simp at state
    rw [free_chans, close_chans_of_ne _ neChan] at state
    obtain ⟨other, otherLive, chan⟩ := wellFormed.attached h b state
    have ne : b ≠ a := by
      rintro rfl
      rw [live, Option.some.injEq] at otherLive
      exact neChan (by rw [← chan, otherLive])
    exact ⟨other, by rw [free_ctxs_of_ne _ ne, close_ctxs, otherLive], chan⟩
  owned b other otherLive := by
    have ne : b ≠ a := by
      rintro rfl
      simp at otherLive
    rw [free_ctxs_of_ne _ ne, close_ctxs] at otherLive
    have neChan : chanOf other ≠ chanOf ctx := fun equal =>
      ne (wellFormed.unique live otherLive equal)
    rw [free_chans, close_chans_of_ne _ neChan]
    exact wellFormed.owned b other otherLive

/-- A table with some of the contexts of another: it has no others, and its channels
are open only as far as they are there. -/
structure Restricts (keep : Ctx → Bool) (full part : Table Ctx) : Prop where
  ctxs : ∀ a, part.ctxs a = (full.ctxs a).filter keep
  chans : ∀ h, part.chans h = .closed ∨ part.chans h = full.chans h

section Restricts

variable {keep : Ctx → Bool} {part : Table Ctx} {h : Handle}

theorem Restricts.empty : Restricts keep (.empty : Table Ctx) .empty :=
  ⟨fun _ => rfl, fun _ => .inl rfl⟩

theorem Restricts.closed (restricts : Restricts keep table part)
    (closed : table.chans h = .closed) : part.chans h = .closed := by
  rcases restricts.chans h with already | same
  · exact already
  · rw [same, closed]

theorem Restricts.unused (restricts : Restricts keep table part) (unused : table.ctxs a = none) :
    part.ctxs a = none := by
  rw [restricts.ctxs, unused, Option.filter_none]

theorem Restricts.live (restricts : Restricts keep table part) (live : table.ctxs a = some ctx)
    (kept : keep ctx = true) : part.ctxs a = some ctx := by
  rw [restricts.ctxs, live, Option.filter_some, if_pos kept]

theorem Restricts.dropped (restricts : Restricts keep table part)
    (live : table.ctxs a = some ctx) (dropped : keep ctx = false) : part.ctxs a = none := by
  simp [restricts.ctxs a, live, Option.filter_some, dropped]

theorem Restricts.connect (restricts : Restricts keep table part) (kept : keep ctx = true) :
    Restricts keep ((table.put a ctx).setChan h (.attached a))
      ((part.put a ctx).setChan h (.attached a)) where
  ctxs b := by
    by_cases same : b = a
    · subst same
      simp [Option.filter_some, kept]
    · simp [put_ctxs_of_ne _ _ same, restricts.ctxs b]
  chans k := by
    by_cases same : k = h
    · subst same
      simp
    · simpa [setChan_chans_of_ne _ _ same] using restricts.chans k

theorem Restricts.connect_dropped (restricts : Restricts keep table part)
    (closed : table.chans h = .closed) (unused : table.ctxs a = none)
    (dropped : keep ctx = false) :
    Restricts keep ((table.put a ctx).setChan h (.attached a)) part where
  ctxs b := by
    by_cases same : b = a
    · subst same
      simp [restricts.unused unused, Option.filter_some, dropped]
    · simp [put_ctxs_of_ne _ _ same, restricts.ctxs b]
  chans k := by
    by_cases same : k = h
    · exact .inl (restricts.closed (same ▸ closed))
    · simpa [setChan_chans_of_ne _ _ same] using restricts.chans k

theorem Restricts.shutdown (restricts : Restricts keep table part) (h : Handle) (a : Addr) :
    Restricts keep ((table.close h).free a) ((part.close h).free a) where
  ctxs b := by
    by_cases same : b = a
    · subst same
      simp
    · simp [free_ctxs_of_ne _ same, restricts.ctxs b]
  chans k := by
    by_cases same : k = h
    · subst same
      simp
    · simpa [close_chans_of_ne _ same] using restricts.chans k

theorem Restricts.shutdown_dropped (restricts : Restricts keep table part)
    (wellFormed : table.WellFormed chanOf) (partWellFormed : part.WellFormed chanOf)
    (live : table.ctxs a = some ctx) (dropped : keep ctx = false) :
    Restricts keep ((table.close (chanOf ctx)).free a) part where
  ctxs b := by
    by_cases same : b = a
    · subst same
      simp [restricts.dropped live dropped]
    · simp [free_ctxs_of_ne _ same, restricts.ctxs b]
  chans k := by
    by_cases same : k = chanOf ctx
    · subst same
      rcases restricts.chans (chanOf ctx) with closed | shared
      · exact .inl closed
      · -- the channel would belong to a context that was dropped
        rw [wellFormed.owned a ctx live] at shared
        obtain ⟨other, otherLive, -⟩ := partWellFormed.attached _ _ shared
        simp [restricts.dropped live dropped] at otherLive
    · simpa [close_chans_of_ne _ same] using restricts.chans k

end Restricts

/-- A handler opens at most the channel and the context it was offered; every other
channel is as before or closed. -/
structure Within (chan : Option Handle) (fresh : Option Addr) (before after : Table Ctx) :
    Prop where
  chans : ∀ h, after.chans h = .closed ∨ after.chans h = before.chans h ∨
    chan = some h ∧ ∃ a, after.chans h = .attached a
  ctxs : ∀ a, before.ctxs a = none → after.ctxs a = none ∨ fresh = some a

section Within

variable {chan : Option Handle} {fresh : Option Addr} {before middle after : Table Ctx}
  {h : Handle}

theorem Within.refl : Within chan fresh before before :=
  ⟨fun _ => .inr (.inl rfl), fun _ unused => .inl unused⟩

theorem Within.trans (first : Within none none before middle)
    (second : Within none none middle after) : Within none none before after where
  chans h := by
    rcases second.chans h with closed | same | ⟨none, -⟩
    · exact .inl closed
    · rw [same]
      exact first.chans h
    · cases none
  ctxs a unused := by
    rcases first.ctxs a unused with unused | none
    · exact second.ctxs a unused
    · cases none

theorem Within.put (live : before.ctxs a = some ctx) (other : Ctx) :
    Within none none before (before.put a other) where
  chans _ := .inr (.inl rfl)
  ctxs b unused := by
    have ne : b ≠ a := by
      rintro rfl
      simp [unused] at live
    exact .inl (by rw [put_ctxs_of_ne _ _ ne, unused])

theorem Within.shutdown (before : Table Ctx) (h : Handle) (a : Addr) :
    Within none none before ((before.close h).free a) where
  chans k := by
    by_cases same : k = h
    · exact .inl (by simp [same])
    · exact .inr (.inl (by rw [free_chans, close_chans_of_ne _ same]))
  ctxs b unused := by
    by_cases same : b = a
    · exact .inl (by simp [same])
    · exact .inl (by rw [free_ctxs_of_ne _ same, close_ctxs, unused])

theorem Within.opened (before : Table Ctx) (h : Handle) (a : Addr) (ctx : Ctx) :
    Within (some h) (some a) before ((before.put a ctx).setChan h (.attached a)) where
  chans k := by
    by_cases same : k = h
    · subst same
      exact .inr (.inr ⟨rfl, a, by simp⟩)
    · exact .inr (.inl (by rw [setChan_chans_of_ne _ _ same, put_chans]))
  ctxs b unused := by
    by_cases same : b = a
    · exact .inr (by rw [same])
    · exact .inl (by rw [setChan_ctxs, put_ctxs_of_ne _ _ same, unused])

end Within

end Table

/-- Results of the calls a port handler makes for an incoming connection. -/
structure Connect (Peer : Type*) where
  /-- `accept`: the new channel, or an error. -/
  chan : Option Handle
  peer : Peer
  /-- `calloc` of the context. -/
  ctx : Option Addr
  cookieSet : Bool

/-- The kernel hands out a handle that is not open, the allocator an address that
is not in use. -/
structure Connect.Offered {Ctx Peer : Type*} (conn : Connect Peer) (table : Table Ctx) :
    Prop where
  chan : ∀ h, conn.chan = some h → table.chans h = .closed
  ctx : ∀ a, conn.ctx = some a → table.ctxs a = none

/-- A port handler that accepts every peer: on a failure after `accept` the
context is freed and the channel closed. -/
def Table.connect {Ctx Peer : Type*} (table : Table Ctx) (make : Handle → Ctx)
    (conn : Connect Peer) : Table Ctx :=
  match conn.chan with
  | none => table
  | some chan =>
      let accepted := table.setChan chan .accepted
      match conn.ctx with
      | none => accepted.close chan
      | some a =>
          let allocated := accepted.put a (make chan)
          if conn.cookieSet then allocated.setChan chan (.attached a)
          else (allocated.free a).close chan

def Connect.established {Peer : Type*} (conn : Connect Peer) : Option (Handle × Addr) :=
  match conn.chan, conn.ctx with
  | some chan, some a => if conn.cookieSet then some (chan, a) else none
  | _, _ => none

theorem Connect.Offered.established {Ctx Peer : Type*} {conn : Connect Peer}
    {table : Table Ctx} (offered : conn.Offered table) {chan : Handle} {a : Addr}
    (established : conn.established = some (chan, a)) :
    table.chans chan = .closed ∧ table.ctxs a = none := by
  unfold Connect.established at established
  split at established
  next chan' a' chanResult ctxResult =>
    split at established
    · cases established
      exact ⟨offered.chan chan chanResult, offered.ctx a ctxResult⟩
    · cases established
  next => cases established

/-- An offered connection adds its context, or leaves the table alone. -/
theorem Table.connect_eq {Ctx Peer : Type*} {table : Table Ctx} {conn : Connect Peer}
    (offered : conn.Offered table) (make : Handle → Ctx) :
    table.connect make conn =
      match conn.established with
      | none => table
      | some (chan, a) => (table.put a (make chan)).setChan chan (.attached a) := by
  unfold Table.connect Connect.established
  cases chanResult : conn.chan with
  | none => rfl
  | some chan =>
      have closed := offered.chan chan chanResult
      cases ctxResult : conn.ctx with
      | none => exact Table.close_setChan_of_closed closed
      | some a =>
          have unused := offered.ctx a ctxResult
          cases conn.cookieSet with
          | true => simp [Table.setChan, Table.put]
          | false =>
              simp only [Bool.false_eq_true, if_false]
              exact Table.undo_connect closed unused

theorem Connect.results_of_established {Peer : Type*} {conn : Connect Peer} {chan : Handle}
    {a : Addr} (established : conn.established = some (chan, a)) :
    conn.chan = some chan ∧ conn.ctx = some a := by
  unfold Connect.established at established
  split at established
  next chan' a' chanResult ctxResult =>
    split at established
    · cases established
      exact ⟨chanResult, ctxResult⟩
    · cases established
  next => cases established

theorem Table.Within.connect {Ctx Peer : Type*} {table : Table Ctx} {conn : Connect Peer}
    (offered : conn.Offered table) (make : Handle → Ctx) :
    Within conn.chan conn.ctx table (table.connect make conn) := by
  rw [Table.connect_eq offered]
  cases result : conn.established with
  | none => exact .refl
  | some created =>
      obtain ⟨chanResult, ctxResult⟩ := Connect.results_of_established result
      rw [chanResult, ctxResult]
      exact .opened table created.1 created.2 (make created.1)

end Ipc
