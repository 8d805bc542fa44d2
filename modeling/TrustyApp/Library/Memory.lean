import Mathlib.Data.List.Nodup
import Mathlib.Data.List.Range
import Mathlib.Data.UInt
import Mathlib.Logic.Function.Basic

/-!
# Blocks and bytes

The heap maps the addresses of live blocks to their contents; releasing a block that
is not live is an error of the program, so that a list of blocks that is released
without error was live and without repetitions.  Buffers are ranges of a byte memory.
-/

namespace Memory

abbrev Addr := Nat

section Heap

def Heap (Block : Type*) := Addr → Option Block

variable {Block : Type*} {heap : Heap Block} {addr other : Addr} {block : Block}

def Heap.alloc (heap : Heap Block) (addr : Addr) (block : Block) : Heap Block :=
  Function.update heap addr (some block)

def Heap.without (heap : Heap Block) (addrs : List Addr) : Heap Block :=
  fun addr => if addr ∈ addrs then none else heap addr

/-- `free`; there is no result for a block that is not live. -/
def Heap.free (heap : Heap Block) (addr : Addr) : Option (Heap Block) :=
  if (heap addr).isSome then some (heap.without [addr]) else none

@[simp] theorem Heap.alloc_self : heap.alloc addr block addr = some block :=
  Function.update_self ..

@[simp] theorem Heap.alloc_of_ne (ne : other ≠ addr) : heap.alloc addr block other = heap other :=
  Function.update_of_ne ne ..

@[simp] theorem Heap.without_nil : heap.without [] = heap := by
  funext addr
  simp [Heap.without]

theorem Heap.without_of_notMem {addrs : List Addr} (kept : addr ∉ addrs) :
    heap.without addrs addr = heap addr := if_neg kept

theorem Heap.without_cons (addrs : List Addr) :
    (heap.without [addr]).without addrs = heap.without (addr :: addrs) := by
  funext other
  by_cases same : other = addr
  · simp [Heap.without, same]
  · simp [Heap.without, same]

theorem Heap.free_of_live (live : (heap addr).isSome) :
    heap.free addr = some (heap.without [addr]) := if_pos live

end Heap

section Bytes

abbrev Store := Nat → UInt8

variable {store : Store} {addr : Nat}

def Store.read (store : Store) (addr : Nat) (len : Nat) : List UInt8 :=
  (List.range len).map fun i => store (addr + i)

def Store.write (store : Store) (addr : Nat) (bytes : List UInt8) : Store :=
  fun other => if addr ≤ other then (bytes[other - addr]?).getD (store other) else store other

theorem Store.write_range (value : Nat → UInt8) (len : Nat) (other : Nat) :
    store.write addr ((List.range len).map value) other =
      if addr ≤ other ∧ other < addr + len then value (other - addr) else store other := by
  by_cases inside : addr ≤ other ∧ other < addr + len
  · have index : other - addr < len := by omega
    simp [Store.write, inside, index]
  · rw [if_neg inside]
    by_cases behind : addr ≤ other
    · have outside : len ≤ other - addr := by omega
      simp [Store.write, outside]
    · simp [Store.write, behind]

/-- A loop that writes one byte after another. -/
theorem Store.write_loop (value : Nat → UInt8) (len : Nat) :
    (List.range len).foldl (fun store i => Function.update store (addr + i) (value i)) store =
      store.write addr ((List.range len).map value) := by
  induction len with
  | zero =>
      funext other
      simp [Store.write]
  | succ len inductionHypothesis =>
      rw [List.range_succ, List.foldl_append, inductionHypothesis, ← List.range_succ]
      funext other
      simp only [List.foldl_cons, List.foldl_nil, Store.write_range]
      by_cases last : other = addr + len
      · simp [last]
      · have same : (addr ≤ other ∧ other < addr + (len + 1)) ↔
            (addr ≤ other ∧ other < addr + len) := by omega
        rw [Function.update_of_ne last, Store.write_range]
        simp only [same]

@[simp] theorem Store.length_read (store : Store) (addr len : Nat) :
    (store.read addr len).length = len := by simp [Store.read]

theorem Store.read_congr {store other : Store} {len : Nat}
    (same : ∀ i, addr ≤ i → i < addr + len → store i = other i) :
    store.read addr len = other.read addr len := by
  refine List.map_congr_left fun i member => ?_
  have inRange := List.mem_range.mp member
  exact same (addr + i) (by omega) (by omega)

theorem Store.write_of_outside {bytes : List UInt8} {other : Nat}
    (outside : ¬ (addr ≤ other ∧ other < addr + bytes.length)) :
    store.write addr bytes other = store other := by
  by_cases above : addr ≤ other
  · have behind : bytes.length ≤ other - addr := by omega
    simp [Store.write, behind]
  · exact if_neg above

theorem Store.read_write {bytes : List UInt8} {first len : Nat} (store : Store)
    (above : addr ≤ first) (below : first + len ≤ addr + bytes.length) :
    (store.write addr bytes).read first len = (bytes.drop (first - addr)).take len := by
  apply List.ext_getElem
  · simp
    omega
  · intro i _ inPart
    have inRange : i < len := by simp at inPart; omega
    have reached : addr ≤ first + i := by omega
    have index : first + i - addr = first - addr + i := by omega
    have inBytes : first - addr + i < bytes.length := by omega
    simp [Store.read, Store.write, reached, index, inBytes]

end Bytes

section Log

structure Write where
  addr : Nat
  bytes : List UInt8
  deriving DecidableEq

def Write.Covers (write : Write) (i : Nat) : Prop :=
  write.addr ≤ i ∧ i < write.addr + write.bytes.length

instance (write : Write) (i : Nat) : Decidable (write.Covers i) :=
  inferInstanceAs (Decidable (_ ∧ _))

/-- Each byte as its latest write has left it; the log has the newest write first. -/
def latest (initial : Store) (log : List Write) : Store :=
  fun i =>
    match log.find? fun write => write.Covers i with
    | none => initial i
    | some write => write.bytes.getD (i - write.addr) 0

variable {initial : Store} {log : List Write} {write : Write}

@[simp] theorem latest_nil (initial : Store) : latest initial [] = initial := rfl

/-- Carrying out the writes of a log leaves the latest ones. -/
theorem latest_cons (initial : Store) (write : Write) (log : List Write) :
    latest initial (write :: log) = (latest initial log).write write.addr write.bytes := by
  funext i
  by_cases covers : write.Covers i
  · obtain ⟨above, below⟩ := covers
    have index : i - write.addr < write.bytes.length := by omega
    simp [latest, Store.write, Write.Covers, above, below, index]
  · have kept : (write.bytes[i - write.addr]?).getD (latest initial log i) =
        latest initial log i ∨ ¬ write.addr ≤ i := by
      by_cases above : write.addr ≤ i
      · have outside : write.bytes.length ≤ i - write.addr := by
          unfold Write.Covers at covers
          omega
        exact .inl (by simp [outside])
      · exact .inr above
    have skipped : latest initial (write :: log) i = latest initial log i := by
      simp [latest, covers]
    rw [skipped, Store.write]
    rcases kept with kept | below
    · rw [kept, ite_self]
    · rw [if_neg below]

/-- A range that later writes have left alone. -/
theorem read_latest_append {later : List Write} {addr len : Nat}
    (untouched : ∀ write ∈ later, ∀ i, addr ≤ i → i < addr + len → ¬ write.Covers i) :
    (latest initial (later ++ log)).read addr len = (latest initial log).read addr len := by
  refine Store.read_congr fun i above below => ?_
  have none : later.find? (fun write => write.Covers i) = none := by
    rw [List.find?_eq_none]
    intro write member
    simpa using untouched write member i above below
  simp [latest, List.find?_append, none]

theorem read_latest_write {first len : Nat} (initial : Store) (log : List Write)
    (above : write.addr ≤ first) (below : first + len ≤ write.addr + write.bytes.length) :
    (latest initial (write :: log)).read first len =
      (write.bytes.drop (first - write.addr)).take len := by
  rw [latest_cons, Store.read_write _ above below]

end Log

end Memory
