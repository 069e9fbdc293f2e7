/-
`sblist` holds a list.

`Stored` says how a block holds the items of an `Sblist`: one after the other from the start, with
room for `capa` of them.  Each call keeps that, and does to the list what `SblistSpec` says: an
addition appends, `sblist_set` replaces, a deletion erases and moves the rest up, and an index that
is out of range does nothing.  No copy leaves the block.

An addition writes through `sblist_set`, after it has counted the new item.  Whatever bytes are in
the new slot are an item, so the list is one longer before it is written to (`Stored.slot`).

The only size that could wrap is the one `realloc` is asked for; everything else is inside the
block.
-/
import TwoSocks.Proofs.AddressParser
import TwoSocks.Server.Sblist

namespace TwoSocks

open Blocks

/-- What the calls are to do to a list. -/
inductive SblistSpec {itemsize : Nat} : Sblist (CArray itemsize) → SblistCall itemsize →
    SblistReturn → Sblist (CArray itemsize) → Prop
  | added {s : Sblist (CArray itemsize)} (item : CArray itemsize) (answer : Option (Nat → UInt8))
      (h : s.getsize < s.capa) :
      SblistSpec s (.add item answer) (.flag true) { s with items := s.items ++ [item] }
  | grown {s : Sblist (CArray itemsize)} (item : CArray itemsize) (fresh : Nat → UInt8)
      (h : s.getsize = s.capa) : SblistSpec s (.add item (some fresh)) (.flag true)
        { s with capa := s.capa + s.blockitems, items := s.items ++ [item] }
  | notAdded {s : Sblist (CArray itemsize)} (item : CArray itemsize) (h : s.getsize = s.capa) :
      SblistSpec s (.add item none) (.flag false) s
  | replaced {s : Sblist (CArray itemsize)} (item : CArray itemsize) {pos : Nat}
      (h : pos < s.getsize) :
      SblistSpec s (.set item pos) (.flag true) { s with items := s.items.set pos item }
  | notReplaced {s : Sblist (CArray itemsize)} (item : CArray itemsize) {pos : Nat}
      (h : s.getsize ≤ pos) : SblistSpec s (.set item pos) (.flag false) s
  | deleted {s : Sblist (CArray itemsize)} {i : Nat} (h : i < s.getsize) :
      SblistSpec s (.delete i) .done { s with items := s.items.eraseIdx i }
  | notDeleted {s : Sblist (CArray itemsize)} {i : Nat} (h : s.getsize ≤ i) :
      SblistSpec s (.delete i) .done s
  | got {s : Sblist (CArray itemsize)} {i : Nat} {item : CArray itemsize}
      (h : s.items[i]? = some item) : SblistSpec s (.get i) (.item (some item.1)) s
  | notGot {s : Sblist (CArray itemsize)} {i : Nat} (h : s.getsize ≤ i) :
      SblistSpec s (.get i) (.item none) s
  | found {s : Sblist (CArray itemsize)} (item1 : Bytes) {cmp : Bytes → Bytes → Int} {i : Nat}
      (hi : ∃ item, s.items[i]? = some item ∧ cmp item1 item.1 = 0)
      (hleast : ∀ j < i, ∀ item, s.items[j]? = some item → cmp item1 item.1 ≠ 0) :
      SblistSpec s (.search item1 cmp) (.index i) s
  | notFound {s : Sblist (CArray itemsize)} (item1 : Bytes) {cmp : Bytes → Bytes → Int}
      (h : ∀ item ∈ s.items, cmp item1 item.1 ≠ 0) :
      SblistSpec s (.search item1 cmp) (.index (-1)) s

/-- Any number of calls. -/
inductive SblistSpecs {itemsize : Nat} : Sblist (CArray itemsize) → List (SblistCall itemsize) →
    List SblistReturn → Sblist (CArray itemsize) → Prop
  | nil (s : Sblist (CArray itemsize)) : SblistSpecs s [] [] s
  | cons {s s' s'' : Sblist (CArray itemsize)} {c : SblistCall itemsize}
      {cs : List (SblistCall itemsize)} {r : SblistReturn} {rs : List SblistReturn}
      (h : SblistSpec s c r s') (hs : SblistSpecs s' cs rs s'') :
      SblistSpecs s (c :: cs) (r :: rs) s''

/-! ### Sizes -/

theorem sizeT_of_lt {n : Nat} (h : n < 2 ^ 64) : sizeT n = n := Nat.mod_eq_of_lt h

theorem sizeToInt_of_lt {n : Nat} (h : n < 2 ^ 31) : sizeToInt n = n := by
  unfold sizeToInt
  rw [BitVec.toInt_eq_toNat_of_lt (by rw [BitVec.toNat_ofNat]; omega), BitVec.toNat_ofNat,
    Nat.mod_eq_of_lt (by omega)]

/-- An item ends where the next one starts. -/
theorem item_end_le {i n itemsize : Nat} (h : i < n) : i * itemsize + itemsize ≤ n * itemsize := by
  rw [← Nat.succ_mul]
  exact Nat.mul_le_mul_right _ h

/-- A `memmove` inside the block. -/
theorem memmove_of_le {block : Bytes} {dst src n : Nat} (hsrc : src + n ≤ block.length)
    (hdst : dst + n ≤ block.length) :
    memmove block dst src n = .ok (overwrite block dst (slice block src n)) := by
  have hlen := length_slice hsrc
  unfold memmove
  rw [readBytes_of_le hsrc]
  show memcpy block dst (slice block src n) = _
  unfold memcpy
  rw [hlen, if_pos hdst]

/-! ### How a block holds a list -/

/-- The block of `l` holds the items of `s`. -/
structure Stored {itemsize : Nat} (l : SblistMem itemsize) (s : Sblist (CArray itemsize)) :
    Prop where
  count : l.count = s.getsize
  capa : l.capa = s.capa
  blockitems : l.blockitems = s.blockitems
  /-- An addition finds room. -/
  grows : 1 ≤ l.blockitems
  /-- The capacity comes in blocks. -/
  blocks : l.blockitems ∣ l.capa
  room : l.count ≤ l.capa
  /-- The block has room for as many items. -/
  length : l.items.length = l.capa * itemsize
  fits : l.capa * itemsize < 2 ^ 64
  items : ∀ i item, s.items[i]? = some item → slice l.items (i * itemsize) itemsize = item.1

namespace Stored

variable {itemsize : Nat} {l : SblistMem itemsize} {s : Sblist (CArray itemsize)}

theorem init {blockitems : Nat} (h : 1 ≤ blockitems) :
    Stored (.init blockitems : SblistMem itemsize) (.new blockitems) where
  count := rfl
  capa := rfl
  blockitems := if_pos (by omega)
  grows := by
    show 1 ≤ if blockitems ≠ 0 then blockitems else _
    rw [if_pos (by omega)]
    exact h
  blocks := Nat.dvd_zero _ |>.trans (Nat.dvd_refl _)
  room := Nat.le_refl _
  length := (Nat.zero_mul _).symm
  fits := by
    show 0 * itemsize < 2 ^ 64
    omega
  items i item h := by simp [Sblist.new] at h

/-- Up to the end of the block an offset is what it should be. -/
theorem itemFromIndex (h : Stored l s) {i : Nat} (hi : i ≤ l.capa) :
    l.itemFromIndex i = i * itemsize :=
  sizeT_of_lt (Nat.lt_of_le_of_lt (Nat.mul_le_mul_right _ hi) h.fits)

/-- An item is inside the block. -/
theorem item_le (h : Stored l s) {i : Nat} (hi : i < l.capa) :
    i * itemsize + itemsize ≤ l.items.length := by
  rw [h.length]
  exact item_end_le hi

/-- **`sblist_set` replaces an item.** -/
theorem set (h : Stored l s) (item : CArray itemsize) {pos : Nat} (hpos : pos < l.count) :
    ∃ l', l.set item pos = .ok (true, l') ∧ l'.capa = l.capa ∧
      Stored l' { s with items := s.items.set pos item } := by
  have hcapa := Nat.lt_of_lt_of_le hpos h.room
  have hend := h.item_le hcapa
  have hstart : pos * itemsize ≤ l.items.length := by omega
  refine ⟨{ l with items := overwrite l.items (pos * itemsize) item.1 }, ?_, rfl,
    ⟨?_, h.capa, h.blockitems, h.grows, h.blocks, h.room, ?_, h.fits, ?_⟩⟩
  · unfold SblistMem.set memcpy
    rw [if_neg (Nat.not_le.mpr hpos), h.itemFromIndex (Nat.le_of_lt hcapa), item.2, if_pos hend]
    rfl
  · rw [Sblist.getsize, List.length_set]
    exact h.count
  · rw [length_overwrite (by rw [item.2]; exact hend)]
    exact h.length
  · intro i item' hi
    rw [List.getElem?_set] at hi
    rcases Nat.lt_trichotomy i pos with hlt | rfl | hgt
    · rw [if_neg (by omega)] at hi
      rw [slice_overwrite_before (item_end_le hlt) hstart]
      exact h.items i item' hi
    · rw [if_pos rfl] at hi
      obtain ⟨-, hi⟩ := Option.ite_none_right_eq_some.mp hi
      obtain rfl := Option.some.inj hi
      have hcopied : slice (overwrite l.items (i * itemsize) item.1) (i * itemsize) item.1.length =
          item.1 := slice_overwrite_self hstart
      rw [item.2] at hcopied
      exact hcopied
    · rw [if_neg (by omega)] at hi
      rw [slice_overwrite_after (by rw [item.2]; exact item_end_le hgt) hstart]
      exact h.items i item' hi

/-- A slot with room is an item, whatever is in it. -/
theorem slot (h : Stored l s) (hroom : l.count < l.capa) (hitem : 1 ≤ itemsize) :
    sizeT (l.count + 1) = l.count + 1 ∧ ∃ item, Stored { l with count := sizeT (l.count + 1) }
      { s with items := s.items ++ [item] } := by
  have hcapa : l.capa < 2 ^ 64 :=
    Nat.lt_of_le_of_lt (Nat.le_mul_of_pos_right _ hitem) h.fits
  have hcount : sizeT (l.count + 1) = l.count + 1 := sizeT_of_lt (by omega)
  refine ⟨hcount, ⟨slice l.items (l.count * itemsize) itemsize, length_slice (h.item_le hroom)⟩,
    ⟨?_, h.capa, h.blockitems, h.grows, h.blocks, ?_, h.length, h.fits, ?_⟩⟩
  · rw [hcount, Sblist.getsize, List.length_append]
    exact congrArg (· + 1) h.count
  · show sizeT (l.count + 1) ≤ l.capa
    omega
  · intro i item hi
    rcases Nat.lt_or_ge i s.items.length with hlt | hge
    · rw [List.getElem?_append_left hlt] at hi
      exact h.items i item hi
    · rw [List.getElem?_append_right hge, List.getElem?_singleton] at hi
      obtain ⟨hzero, hi⟩ := Option.ite_none_right_eq_some.mp hi
      obtain rfl := Option.some.inj hi
      have hlast : i = l.count := by
        rw [h.count, Sblist.getsize]
        omega
      rw [hlast]

/-- A full list whose `realloc` succeeds has room for another block of items. -/
theorem growIfNeeded (h : Stored l s) (hfull : l.count = l.capa) (fresh : Nat → UInt8)
    (hfits : (l.capa + l.blockitems) * itemsize < 2 ^ 64) (hitem : 1 ≤ itemsize) :
    ∃ l', l.growIfNeeded (some fresh) = (true, l') ∧ l'.count < l'.capa ∧
      Stored l' { s with capa := s.capa + s.blockitems } := by
  have hgrows := h.grows
  have hcapa : sizeT (l.capa + l.blockitems) = l.capa + l.blockitems :=
    sizeT_of_lt (Nat.lt_of_le_of_lt (Nat.le_mul_of_pos_right _ hitem) hfits)
  have hold : l.items.length ≤ (l.capa + l.blockitems) * itemsize := by
    rw [h.length]
    exact Nat.mul_le_mul_right _ (Nat.le_add_right ..)
  refine ⟨{ l with
    capa := l.capa + l.blockitems
    items := resize l.items ((l.capa + l.blockitems) * itemsize) fresh }, ?_, ?_,
    ⟨h.count, ?_, h.blockitems, h.grows, ?_, ?_, length_resize, hfits, ?_⟩⟩
  · unfold SblistMem.growIfNeeded
    rw [if_pos hfull, hcapa, sizeT_of_lt hfits]
  · show l.count < l.capa + l.blockitems
    omega
  · rw [← h.capa, ← h.blockitems]
  · exact Nat.dvd_add h.blocks (Nat.dvd_refl _)
  · show l.count ≤ l.capa + l.blockitems
    omega
  · intro i item hi
    have hlt : i < l.capa := by
      have := (List.getElem?_eq_some_iff.mp hi).1
      rw [← hfull, h.count]
      exact this
    rw [slice_resize (h.item_le hlt) hold]
    exact h.items i item hi

/-- With room for it, an item is appended. -/
theorem append (h : Stored l s) (hroom : l.count < l.capa) (hitem : 1 ≤ itemsize)
    (item : CArray itemsize) :
    ∃ l', SblistMem.set { l with count := sizeT (l.count + 1) } item (sizeT (l.count + 1) - 1) =
        .ok (true, l') ∧ l'.capa = l.capa ∧
      Stored l' { s with items := s.items ++ [item] } := by
  obtain ⟨hcount, old, hslot⟩ := h.slot hroom hitem
  obtain ⟨l', hset, hcapa, hl'⟩ := hslot.set item
    (show sizeT (l.count + 1) - 1 < sizeT (l.count + 1) by omega)
  refine ⟨l', hset, hcapa, ?_⟩
  have hlast : (s.items ++ [old]).set (sizeT (l.count + 1) - 1) item = s.items ++ [item] := by
    rw [hcount, Nat.add_sub_cancel, h.count, Sblist.getsize,
      List.set_append_right _ _ (Nat.le_refl _), Nat.sub_self]
    rfl
  rw [← hlast]
  exact hl'

/-- **`sblist_add` appends an item, or leaves the list as it is.** -/
theorem add (h : Stored l s) (item : CArray itemsize) (answer : Option (Nat → UInt8))
    (hfits : l.count = l.capa → (l.capa + l.blockitems) * itemsize < 2 ^ 64)
    (hitem : 1 ≤ itemsize) :
    ∃ ok l' s', l.add item answer = .ok (ok, l') ∧ Stored l' s' ∧
      SblistSpec s (.add item answer) (.flag ok) s' := by
  unfold SblistMem.add
  by_cases hfull : l.count = l.capa
  · have hsize : s.getsize = s.capa := by rw [← h.count, ← h.capa, hfull]
    cases answer with
    | none =>
        have hgrow : l.growIfNeeded none = (false, l) := if_pos hfull
        rw [hgrow]
        exact ⟨false, l, s, rfl, h, .notAdded item hsize⟩
    | some fresh =>
        obtain ⟨l₁, hgrow, hroom, hl₁⟩ := h.growIfNeeded hfull fresh (hfits hfull) hitem
        obtain ⟨l', hset, -, hl'⟩ := hl₁.append hroom hitem item
        rw [hgrow]
        exact ⟨true, l', _, hset, hl', .grown item fresh hsize⟩
  · have hroom : l.count < l.capa := Nat.lt_of_le_of_ne h.room hfull
    have hgrow : l.growIfNeeded answer = (true, l) := if_neg hfull
    obtain ⟨l', hset, -, hl'⟩ := h.append hroom hitem item
    rw [hgrow]
    rw [h.count, h.capa] at hroom
    exact ⟨true, l', _, hset, hl', .added item answer hroom⟩

/-- **`sblist_delete` erases an item.** -/
theorem delete (h : Stored l s) {i : Nat} (hi : i < l.count) (hitem : 1 ≤ itemsize) :
    ∃ l', l.delete i = .ok l' ∧ Stored l' { s with items := s.items.eraseIdx i } := by
  have hroom := h.room
  have hcapa : l.capa < 2 ^ 64 :=
    Nat.lt_of_le_of_lt (Nat.le_mul_of_pos_right _ hitem) h.fits
  have hnext : sizeT (i + 1) = i + 1 := sizeT_of_lt (by omega)
  have hrest : (i + 1) * itemsize + (l.count - (i + 1)) * itemsize ≤ l.items.length := by
    rw [← Nat.add_mul, h.length]
    exact Nat.mul_le_mul_right _ (by omega)
  have hmoved : sizeT ((l.count - (i + 1)) * itemsize) = (l.count - (i + 1)) * itemsize := by
    have := h.fits
    have := h.length
    exact sizeT_of_lt (by omega)
  have hup : i * itemsize ≤ (i + 1) * itemsize := Nat.mul_le_mul_right _ (Nat.le_succ i)
  have hlen := length_slice hrest
  have hdst : i * itemsize +
      (slice l.items ((i + 1) * itemsize) ((l.count - (i + 1)) * itemsize)).length ≤
      l.items.length := by omega
  refine ⟨{ l with
    count := l.count - 1
    items := overwrite l.items (i * itemsize)
      (slice l.items ((i + 1) * itemsize) ((l.count - (i + 1)) * itemsize)) }, ?_,
    ⟨?_, h.capa, h.blockitems, h.grows, h.blocks, ?_, ?_, h.fits, ?_⟩⟩
  · unfold SblistMem.delete
    rw [if_pos ⟨by omega, hi⟩, hnext, hmoved, h.itemFromIndex (show i ≤ l.capa by omega),
      h.itemFromIndex (show i + 1 ≤ l.capa by omega), memmove_of_le hrest (hlen ▸ hdst)]
    rfl
  · have hlt : i < s.items.length := by
      show i < s.getsize
      rw [← h.count]
      exact hi
    rw [Sblist.getsize, List.length_eraseIdx_of_lt hlt]
    exact congrArg (· - 1) h.count
  · show l.count - 1 ≤ l.capa
    omega
  · rw [length_overwrite hdst]
    exact h.length
  · intro j item hj
    rw [List.getElem?_eraseIdx] at hj
    by_cases hlt : j < i
    · rw [if_pos hlt] at hj
      rw [slice_overwrite_before (item_end_le hlt) (by omega)]
      exact h.items j item hj
    · rw [if_neg hlt] at hj
      obtain ⟨k, rfl⟩ := Nat.exists_eq_add_of_le (Nat.le_of_not_lt hlt)
      have hk : i + k + 1 < l.count := by
        rw [h.count]
        exact (List.getElem?_eq_some_iff.mp hj).1
      have hwithin : k * itemsize + itemsize ≤ (l.count - (i + 1)) * itemsize :=
        item_end_le (by omega)
      calc slice (overwrite l.items (i * itemsize) _) ((i + k) * itemsize) itemsize
          = slice (slice l.items ((i + 1) * itemsize) ((l.count - (i + 1)) * itemsize))
              (k * itemsize) itemsize := by
            rw [Nat.add_mul i k]
            exact slice_overwrite_within (by rw [hlen]; exact hwithin) (by omega)
        _ = slice l.items ((i + k + 1) * itemsize) itemsize := by
            rw [slice_slice hwithin, ← Nat.add_mul, Nat.add_right_comm]
        _ = item.1 := h.items (i + k + 1) item hj

/-- What the loop of `sblist_search` has to go through is where it finds its item. -/
theorem searchFrom (h : Stored l s) (item1 : Bytes) (cmp : Bytes → Bytes → Int)
    (hint : l.count < 2 ^ 31) : ∀ {n i : Nat}, i + n = l.count →
      (∃ (j : Nat) (item : CArray itemsize), l.searchFrom item1 cmp i n = .ok (j : Int) ∧
          s.items[j]? = some item ∧ cmp item1 item.1 = 0 ∧
          ∀ k, i ≤ k → k < j → ∀ item, s.items[k]? = some item → cmp item1 item.1 ≠ 0) ∨
        (l.searchFrom item1 cmp i n = .ok (-1) ∧
          ∀ k, i ≤ k → ∀ item, s.items[k]? = some item → cmp item1 item.1 ≠ 0) := by
  intro n
  induction n with
  | zero =>
      intro i hi
      refine .inr ⟨rfl, fun k hk item hitem => ?_⟩
      have hlt : k < s.getsize := (List.getElem?_eq_some_iff.mp hitem).1
      rw [← h.count] at hlt
      omega
  | succ n ih =>
      intro i hi
      have hroom := h.room
      have hlt : i < s.items.length := by
        show i < s.getsize
        rw [← h.count]
        omega
      have hitem : s.items[i]? = some s.items[i] := List.getElem?_eq_getElem hlt
      have hread : readBytes l.items l.items.length (l.itemFromIndex i) itemsize =
          .ok s.items[i].1 := by
        rw [h.itemFromIndex (show i ≤ l.capa by omega), ← h.items i _ hitem]
        exact readBytes_of_le (h.item_le (show i < l.capa by omega))
      unfold SblistMem.searchFrom
      rw [hread]
      show (∃ (j : Nat) (item : CArray itemsize),
          (if 0 = cmp item1 s.items[i].1 then _ else _ : Mem Int) = _ ∧ _) ∨
        (if 0 = cmp item1 s.items[i].1 then _ else _ : Mem Int) = _ ∧ _
      by_cases hcmp : 0 = cmp item1 s.items[i].1
      · rw [if_pos hcmp, sizeToInt_of_lt (show i < 2 ^ 31 by omega)]
        exact .inl ⟨i, _, rfl, hitem, hcmp.symm, fun k hik hki => absurd hki (by omega)⟩
      · rw [if_neg hcmp]
        have hhere : ∀ k item, i ≤ k → s.items[k]? = some item →
            (i + 1 ≤ k → cmp item1 item.1 ≠ 0) → cmp item1 item.1 ≠ 0 := by
          intro k item hik hk hlater
          by_cases heq : i = k
          · subst heq
            obtain rfl := Option.some.inj (hitem.symm.trans hk)
            exact fun hzero => hcmp hzero.symm
          · exact hlater (by omega)
        rcases ih (show i + 1 + n = l.count by omega) with
          ⟨j, item, hrun, hj, hzero, hleast⟩ | ⟨hrun, hnone⟩
        · refine .inl ⟨j, item, hrun, hj, hzero, fun k hik hkj item' hk => ?_⟩
          exact hhere k item' hik hk fun hlater => hleast k hlater hkj item' hk
        · refine .inr ⟨hrun, fun k hik item hk => ?_⟩
          exact hhere k item hik hk fun hlater => hnone k hlater item hk

/-- **`sblist_search` finds the least index there is.** -/
theorem search (h : Stored l s) (item1 : Bytes) (cmp : Bytes → Bytes → Int)
    (hint : l.count < 2 ^ 31) :
    ∃ r, l.search item1 cmp = .ok r ∧ SblistSpec s (.search item1 cmp) (.index r) s := by
  rcases h.searchFrom item1 cmp hint (Nat.zero_add l.count) with
    ⟨j, item, hrun, hj, hzero, hleast⟩ | ⟨hrun, hnone⟩
  · refine ⟨j, hrun, .found item1 ⟨item, hj, hzero⟩ fun k hk => hleast k (Nat.zero_le k) hk⟩
  · refine ⟨-1, hrun, .notFound item1 fun item hitem => ?_⟩
    obtain ⟨k, hk⟩ := List.getElem?_of_mem hitem
    exact hnone k (Nat.zero_le k) item hk

end Stored

/-! ### Calls -/

section Calls

variable {itemsize : Nat}

/-- The sizes of a call are in range: what `realloc` is asked for is a `size_t`, and an index that
is searched for an `int`. -/
def SblistMem.Fits (l : SblistMem itemsize) : SblistCall itemsize → Prop
  | .add _ _ => l.count = l.capa → (l.capa + l.blockitems) * itemsize < 2 ^ 64
  | .search _ _ => l.count < 2 ^ 31
  | _ => True

/-- And so they are in every call. -/
def SblistMem.AllFit : SblistMem itemsize → List (SblistCall itemsize) → Prop
  | _, [] => True
  | l, c :: cs => l.Fits c ∧ ∀ r l', l.call c = .ok (r, l') → l'.AllFit cs

variable {l : SblistMem itemsize} {s : Sblist (CArray itemsize)}

/-- **One call does to the list what it is to do.** -/
theorem Stored.call (h : Stored l s) (hitem : 1 ≤ itemsize) {c : SblistCall itemsize}
    (hfits : l.Fits c) :
    ∃ r l' s', l.call c = .ok (r, l') ∧ Stored l' s' ∧ SblistSpec s c r s' := by
  cases c with
  | add item answer =>
      obtain ⟨ok, l', s', hadd, hl', hspec⟩ := h.add item answer hfits hitem
      refine ⟨.flag ok, l', s', ?_, hl', hspec⟩
      rw [SblistMem.call, hadd]
      rfl
  | set item pos =>
      rw [SblistMem.call]
      by_cases hpos : pos < l.count
      · obtain ⟨l', hset, -, hl'⟩ := h.set item hpos
        rw [hset]
        exact ⟨_, l', _, rfl, hl', .replaced item (h.count ▸ hpos)⟩
      · have hset : l.set item pos = .ok (false, l) := if_pos (Nat.le_of_not_lt hpos)
        rw [hset]
        exact ⟨_, l, s, rfl, h, .notReplaced item (h.count ▸ Nat.le_of_not_lt hpos)⟩
  | delete i =>
      rw [SblistMem.call]
      by_cases hi : i < l.count
      · obtain ⟨l', hdelete, hl'⟩ := h.delete hi hitem
        rw [hdelete]
        exact ⟨_, l', _, rfl, hl', .deleted (h.count ▸ hi)⟩
      · have hdelete : l.delete i = .ok l := if_neg fun hc => hi hc.2
        rw [hdelete]
        exact ⟨_, l, s, rfl, h, .notDeleted (h.count ▸ Nat.le_of_not_lt hi)⟩
  | get i =>
      rw [SblistMem.call, SblistMem.get]
      by_cases hi : i < l.count
      · have hroom := h.room
        have hlt : i < s.items.length := by
          rw [h.count] at hi
          exact hi
        have hgot : s.items[i]? = some s.items[i] := List.getElem?_eq_getElem hlt
        rw [if_pos hi, h.itemFromIndex (show i ≤ l.capa by omega)]
        show ∃ r l' s', (readBytes _ _ _ _ >>= _) = _ ∧ _
        rw [readBytes_of_le (h.item_le (show i < l.capa by omega))]
        refine ⟨_, l, s, rfl, h, ?_⟩
        have hslice := h.items i _ hgot
        unfold slice at hslice
        rw [hslice]
        exact .got hgot
      · rw [if_neg hi]
        exact ⟨_, l, s, rfl, h, .notGot (h.count ▸ Nat.le_of_not_lt hi)⟩
  | search item1 cmp =>
      obtain ⟨r, hsearch, hspec⟩ := h.search item1 cmp hfits
      refine ⟨.index r, l, s, ?_, h, hspec⟩
      rw [SblistMem.call, hsearch]
      rfl

/-- Any number of them does. -/
theorem Stored.calls (hitem : 1 ≤ itemsize) : ∀ {cs : List (SblistCall itemsize)}
    {l : SblistMem itemsize} {s : Sblist (CArray itemsize)}, Stored l s → l.AllFit cs →
      ∃ rs l' s', l.calls cs = .ok (rs, l') ∧ Stored l' s' ∧ SblistSpecs s cs rs s' := by
  intro cs
  induction cs with
  | nil =>
      intro l s h _
      exact ⟨[], l, s, rfl, h, .nil s⟩
  | cons c cs ih =>
      intro l s h hfits
      obtain ⟨r, l₁, s₁, hcall, hl₁, hspec⟩ := h.call hitem hfits.1
      obtain ⟨rs, l', s', hcalls, hl', hspecs⟩ := ih hl₁ (hfits.2 r l₁ hcall)
      refine ⟨r :: rs, l', s', ?_, hl', .cons hspec hspecs⟩
      unfold SblistMem.calls
      rw [hcall]
      show (l₁.calls cs >>= _) = _
      rw [hcalls]
      rfl

end Calls

/--
**`sblist` refines a list.**

Any calls on a new `sblist` come back without leaving the block, with what they come back with for
a list, and the block holds that list.
-/
theorem sblist_refines {itemsize blockitems : Nat} (hitem : 1 ≤ itemsize) (hblock : 1 ≤ blockitems)
    (cs : List (SblistCall itemsize))
    (hfits : SblistMem.AllFit (.init blockitems) cs) :
    ∃ rs l s, (SblistMem.init blockitems).calls cs = .ok (rs, l) ∧ Stored l s ∧
      SblistSpecs (.new blockitems) cs rs s :=
  (Stored.init hblock).calls hitem hfits

/-- Comparison by equality. -/
def sameBytes (a b : Bytes) : Int := if a = b then 0 else 1

/-- Items of two bytes, two to a block.  A third is refused memory and comes back later, the first
is deleted, and some indices are out of range. -/
def blockCalls : List (SblistCall 2) :=
  [.add ⟨[1, 2], rfl⟩ (some fun _ => 0), .add ⟨[3, 4], rfl⟩ none, .add ⟨[5, 6], rfl⟩ none,
    .add ⟨[5, 6], rfl⟩ (some fun _ => 9), .delete 0, .get 1, .get 2, .set ⟨[7, 8], rfl⟩ 2,
    .delete 2, .search [5, 6] sameBytes, .search [1, 2] sameBytes]

/-- What they come back with. -/
def blockReturns : List SblistReturn :=
  [.flag true, .flag true, .flag false, .flag true, .done, .item (some [5, 6]), .item none,
    .flag false, .done, .index 1, .index (-1)]

theorem SblistMem.AllFit.cons {itemsize : Nat} {l l' : SblistMem itemsize}
    {c : SblistCall itemsize} {cs : List (SblistCall itemsize)} {r : SblistReturn}
    (hfits : l.Fits c) (hcall : l.call c = .ok (r, l')) (h : l'.AllFit cs) :
    l.AllFit (c :: cs) := by
  refine ⟨hfits, fun r₁ l₁ hcall₁ => ?_⟩
  rw [hcall] at hcall₁
  cases hcall₁
  exact h

/-- Across the end of a block. -/
theorem sblist_refines_added : ∃ l s,
    (SblistMem.init 2).calls blockCalls = .ok (blockReturns, l) ∧ l.count = 2 ∧
      l.items.take 4 = [3, 4, 5, 6] ∧ Stored l s ∧
      SblistSpecs (.new 2) blockCalls blockReturns s := by
  have hfits : SblistMem.AllFit (.init 2) blockCalls :=
    .cons (fun _ => by decide) rfl <| .cons (fun _ => by decide) rfl <|
    .cons (fun _ => by decide) rfl <| .cons (fun _ => by decide) rfl <|
    .cons trivial rfl <| .cons trivial rfl <| .cons trivial rfl <| .cons trivial rfl <|
    .cons trivial rfl <| .cons (show 2 < 2 ^ 31 by decide) rfl <|
    .cons (show 2 < 2 ^ 31 by decide) rfl trivial
  obtain ⟨rs, l, s, hcalls, hstored, hspecs⟩ :=
    sblist_refines (by decide) (by decide) blockCalls hfits
  have hrun : (SblistMem.init 2).calls blockCalls =
      .ok (blockReturns, ⟨2, 2, 4, [3, 4, 5, 6, 5, 6, 9, 9]⟩) := rfl
  rw [hrun] at hcalls
  cases hcalls
  exact ⟨_, s, hrun, rfl, rfl, hstored, hspecs⟩

/-! ### The lists of the server -/

section Server

open Server Prog

variable {itemsize : Nat} {s : Sblist (CArray itemsize)}

/-- An addition of the server is one of these. -/
theorem sblistAdd_spec (h : s.getsize ≤ s.capa) {item : CArray itemsize} {tr : Trace sys}
    {r : Option (Sblist (CArray itemsize))} (hrun : Eval (sblistAdd s item) tr r) :
    ∃ answer, SblistSpec s (.add item answer) (.flag r.isSome) (r.getD s) := by
  unfold sblistAdd sblistGrowIfNeeded at hrun
  by_cases hfull : s.getsize = s.capa
  · rw [if_pos hfull] at hrun
    cases hrun with
    | @call _ _ _ ok _ _ hrun =>
        cases ok with
        | false =>
            cases hrun
            exact ⟨none, .notAdded item hfull⟩
        | true =>
            cases hrun
            exact ⟨some fun _ => 0, .grown item _ hfull⟩
  · rw [if_neg hfull] at hrun
    cases hrun
    exact ⟨none, .added item none (Nat.lt_of_le_of_ne h hfull)⟩

/-- So is a deletion. -/
theorem Sblist.delete_spec (i : Nat) : SblistSpec s (.delete i) .done (s.delete i) := by
  by_cases hi : i < s.getsize
  · exact .deleted hi
  · have hsame : s.delete i = s := by
      unfold Sblist.delete
      rw [List.eraseIdx_of_length_le (Nat.le_of_not_lt hi)]
    rw [hsame]
    exact .notDeleted (Nat.le_of_not_lt hi)

/-- So is a search, with `none` for `-1`. -/
theorem Sblist.search_spec (item1 : Bytes) (cmp : Bytes → Bytes → Int) :
    SblistSpec s (.search item1 cmp)
      (.index (((s.search fun item => cmp item1 item.1 = 0).map Int.ofNat).getD (-1))) s := by
  unfold Sblist.search
  cases hfind : s.items.findIdx? fun item => cmp item1 item.1 = 0 with
  | none =>
      refine .notFound item1 fun item hitem hzero => ?_
      have hnone := List.findIdx?_eq_none_iff.mp hfind item hitem
      exact of_decide_eq_false hnone hzero
  | some i =>
      obtain ⟨hlt, hzero, hleast⟩ := List.findIdx?_eq_some_iff_getElem.mp hfind
      refine .found item1 ⟨_, List.getElem?_eq_getElem hlt, of_decide_eq_true hzero⟩ ?_
      intro j hj item hitem hcmp
      obtain ⟨hjlt, rfl⟩ := List.getElem?_eq_some_iff.mp hitem
      exact hleast j hj (decide_eq_true hcmp)

end Server

end TwoSocks
