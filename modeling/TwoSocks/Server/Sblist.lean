/-
`sblist` as it lies in memory.

In `Server/Sys.lean` an `Sblist` is a list of items.  Here is what the source keeps: the block
of bytes that `items` points to, how many items are in it and how many have room.  A pointer into
the block is an offset, `NULL` is the block without bytes, and a `memcpy` or a `memmove` faults
when it leaves the block.  Sizes are `size_t`, so they wrap.  The size of an item is set once, by
`sblist_init`, and is a parameter.

The answer of `realloc` comes with the call that asks: `none` if there is no memory, and otherwise
what the bytes past the old ones are, which may be anything.
-/
import TwoSocks.Program.Blocks
import TwoSocks.Server.Memory

namespace TwoSocks

open Blocks

/-- `MY_PAGE_SIZE`. -/
def MY_PAGE_SIZE : Nat := 4096

/-- A `size_t`. -/
def sizeT (n : Nat) : Nat := n % 2 ^ 64

/-- A `size_t` returned as an `int`. -/
def sizeToInt (n : Nat) : Int := (BitVec.ofNat 32 n).toInt

/-- `memcpy(block + i, src, n)`. -/
def memcpy (block : Bytes) (i : Nat) (src : Bytes) : Mem Bytes :=
  if i + src.length ≤ block.length then .ok (overwrite block i src)
  else .error (.write (max i block.length))

/-- `memmove(block + dst, block + src, n)`. -/
def memmove (block : Bytes) (dst src n : Nat) : Mem Bytes := do
  memcpy block dst (← readBytes block block.length src n)

/-- `sblist`. -/
structure SblistMem (itemsize : Nat) where
  blockitems : Nat
  count : Nat
  capa : Nat
  items : Bytes

namespace SblistMem

variable {itemsize : Nat}

/-- `sblist_init`, with `sblist_clear`. -/
def init (blockitems : Nat) : SblistMem itemsize :=
  ⟨if blockitems ≠ 0 then blockitems else MY_PAGE_SIZE / itemsize, 0, 0, []⟩

/-- `sblist_new`; nothing is initialised if `malloc` fails. -/
def new (malloc : Bool) (blockitems : Nat) : Option (SblistMem itemsize) :=
  if malloc then some (init blockitems) else none

/-- `sblist_item_from_index`. -/
def itemFromIndex (_ : SblistMem itemsize) (idx : Nat) : Nat := sizeT (idx * itemsize)

/-- `sblist_get`. -/
def get (l : SblistMem itemsize) (item : Nat) : Option Nat :=
  if item < l.count then some (l.itemFromIndex item) else none

/-- `sblist_set`. -/
def set (l : SblistMem itemsize) (item : CArray itemsize) (pos : Nat) :
    Mem (Bool × SblistMem itemsize) := do
  if pos ≥ l.count then return (false, l)
  else
    let items ← memcpy l.items (l.itemFromIndex pos) item.1
    return (true, { l with items })

/-- `sblist_grow_if_needed`. -/
def growIfNeeded (l : SblistMem itemsize) (answer : Option (Nat → UInt8)) :
    Bool × SblistMem itemsize :=
  if l.count = l.capa then
    let size := sizeT (sizeT (l.capa + l.blockitems) * itemsize)
    match answer with
    | none => (false, l)
    | some fresh =>
        (true, { l with
          capa := sizeT (l.capa + l.blockitems)
          items := resize l.items size fresh })
  else (true, l)

/-- `sblist_add`. -/
def add (l : SblistMem itemsize) (item : CArray itemsize) (answer : Option (Nat → UInt8)) :
    Mem (Bool × SblistMem itemsize) :=
  match l.growIfNeeded answer with
  | (false, l) => return (false, l)
  | (true, l) =>
      let l := { l with count := sizeT (l.count + 1) }
      l.set item (l.count - 1)

/-- `sblist_delete`. -/
def delete (l : SblistMem itemsize) (item : Nat) : Mem (SblistMem itemsize) := do
  if l.count ≠ 0 ∧ item < l.count then
    let items ← memmove l.items (l.itemFromIndex item) (l.itemFromIndex (sizeT (item + 1)))
      (sizeT ((l.count - sizeT (item + 1)) * itemsize))
    return { l with items, count := l.count - 1 }
  else return l

/-- The loop of `sblist_search`, with `n` items to go from `i` on. -/
def searchFrom (l : SblistMem itemsize) (item1 : Bytes) (cmp : Bytes → Bytes → Int) (i : Nat) :
    Nat → Mem Int
  | 0 => return -1
  | n + 1 => do
    let item2 ← readBytes l.items l.items.length (l.itemFromIndex i) itemsize
    if 0 = cmp item1 item2 then return sizeToInt i else l.searchFrom item1 cmp (i + 1) n

/-- `sblist_search`.  The comparison is given the bytes of the two items. -/
def search (l : SblistMem itemsize) (item1 : Bytes) (cmp : Bytes → Bytes → Int) : Mem Int :=
  l.searchFrom item1 cmp 0 l.count

end SblistMem

/-! ### Calls -/

/-- One call. -/
inductive SblistCall (itemsize : Nat)
  | add (item : CArray itemsize) (answer : Option (Nat → UInt8))
  | set (item : CArray itemsize) (pos : Nat)
  | delete (item : Nat)
  | get (item : Nat)
  | search (item1 : Bytes) (cmp : Bytes → Bytes → Int)

/-- What a call comes back with.  A pointer from `sblist_get` stands for the item's bytes, which
the caller reads. -/
inductive SblistReturn
  | flag (ok : Bool)
  | done
  | item (bytes : Option Bytes)
  | index (i : Int)
  deriving DecidableEq

namespace SblistMem

variable {itemsize : Nat}

def call (l : SblistMem itemsize) : SblistCall itemsize → Mem (SblistReturn × SblistMem itemsize)
  | .add item answer => do
      let (ok, l) ← l.add item answer
      return (.flag ok, l)
  | .set item pos => do
      let (ok, l) ← l.set item pos
      return (.flag ok, l)
  | .delete item => do
      let l ← l.delete item
      return (.done, l)
  | .get item =>
      match l.get item with
      | none => return (.item none, l)
      | some pointer => do
          let bytes ← readBytes l.items l.items.length pointer itemsize
          return (.item (some bytes), l)
  | .search item1 cmp => do
      let i ← l.search item1 cmp
      return (.index i, l)

/-- Any number of calls. -/
def calls (l : SblistMem itemsize) :
    List (SblistCall itemsize) → Mem (List SblistReturn × SblistMem itemsize)
  | [] => return ([], l)
  | c :: cs => do
      let (r, l) ← l.call c
      let (rs, l) ← l.calls cs
      return (r :: rs, l)

end SblistMem

end TwoSocks
