import Mathlib

/-!
# Pipes

How many bytes are in a pipe does not say how many more it takes. A kernel keeps them in pages: a
page is free again when all of it was read, and a `write` adds to the last page only what fits
there. So a pipe has a layout of its own here, and two bounds. It never holds more than the one, and
up to the other it grants room: while what is in it and what is left of a `write` are no more, the
`write` goes on.

Both bounds are met by a pipe that counts its bytes, with its capacity, and by a pipe of pages, with
about half of its capacity and all of it.
-/

/-- Of a `write` that has so many bytes left, some go in; a short one goes in whole. -/
def GoesOn {L : Type} (pipeBuf : Nat) (put : Nat → Option L) (left : Nat) : Prop :=
  ∃ n, 0 < n ∧ n ≤ left ∧ (left ≤ pipeBuf → n = left) ∧ put n ≠ none

/-- A pipe that does not split a `write` of at most `pipeBuf` bytes. -/
structure Pipe (pipeBuf : Nat) where
  Layout : Type
  empty : Layout
  /-- How many bytes are in it. -/
  size : Layout → Nat
  /-- Of a `write` that has so many bytes left, so many go in, if there is room for them. -/
  put : Layout → Nat → Nat → Option Layout
  /-- So many bytes are read. -/
  get : Layout → Nat → Layout
  size_empty : size empty = 0
  size_put : ∀ {l l' left n}, put l left n = some l' → size l' = size l + n
  size_get : ∀ {l n}, n ≤ size l → size (get l n) + n = size l
  /-- There is room in an empty pipe. -/
  put_empty : ∀ {l left}, size l = 0 → 0 < left → GoesOn pipeBuf (put l left) left

namespace Pipe

variable {pipeBuf : Nat}

/-- As `put`. A `write` of nothing does not wait. -/
def write (p : Pipe pipeBuf) (l : p.Layout) (left n : Nat) : Option p.Layout :=
  if n = 0 then some l else p.put l left n

/-- While what is in the pipe and what is left of a `write` are no more, the `write` goes on. -/
def Grants (p : Pipe pipeBuf) (room : Nat) : Prop :=
  ∀ l left, 0 < left → p.size l + left ≤ room → GoesOn pipeBuf (p.put l left) left

def HoldsAtMost (p : Pipe pipeBuf) (capacity : Nat) : Prop := ∀ l, p.size l ≤ capacity

variable {p : Pipe pipeBuf} {l l' : p.Layout} {left n : Nat}

theorem size_write (h : p.write l left n = some l') : p.size l' = p.size l + n := by
  rw [write] at h
  split at h
  · next none =>
      rw [none, Nat.add_zero, Option.some.inj h]
  · exact p.size_put h

theorem write_ne_none (positive : 0 < n) (h : p.put l left n ≠ none) :
    p.write l left n ≠ none := by
  rw [write, if_neg (Nat.ne_of_gt positive)]
  exact h

end Pipe

/-! ## A pipe that counts its bytes -/

/-- How many bytes are in a pipe that has room for so many. -/
structure Bytes (capacity : Nat) where
  count : Nat := 0
  fits : count ≤ capacity := by omega

namespace Bytes

variable {capacity : Nat}

def put (l : Bytes capacity) (n : Nat) : Option (Bytes capacity) :=
  if fits : l.count + n ≤ capacity then some { count := l.count + n, fits } else none

def get (l : Bytes capacity) (n : Nat) : Bytes capacity :=
  { count := l.count - n, fits := (Nat.sub_le _ _).trans l.fits }

theorem count_put {l l' : Bytes capacity} {n : Nat} (h : l.put n = some l') :
    l'.count = l.count + n := by
  obtain ⟨fits, h⟩ := Option.dite_none_right_eq_some.mp h
  rw [← Option.some.inj h]

theorem put_ne_none {l : Bytes capacity} {n : Nat} (fits : l.count + n ≤ capacity) :
    l.put n ≠ none := by
  rw [put, dif_pos fits]
  exact Option.some_ne_none _

end Bytes

/-- A pipe with room for so many bytes, however they were written. -/
def Pipe.bytes {pipeBuf : Nat} (capacity : Nat) (positive : 0 < capacity)
    (pipeBuf_le : pipeBuf ≤ capacity) : Pipe pipeBuf where
  Layout := Bytes capacity
  empty := {}
  size := Bytes.count
  put l _ n := l.put n
  get := Bytes.get
  size_empty := rfl
  size_put := Bytes.count_put
  size_get := Nat.sub_add_cancel
  put_empty nothing some :=
    ⟨min _ capacity, lt_min some positive, Nat.min_le_left _ _,
      fun short => Nat.min_eq_left (short.trans pipeBuf_le),
      Bytes.put_ne_none (by rw [nothing, Nat.zero_add]; exact Nat.min_le_right _ _)⟩

section

variable {pipeBuf capacity : Nat} {positive : 0 < capacity} {pipeBuf_le : pipeBuf ≤ capacity}

theorem Pipe.bytes_grants : (Pipe.bytes capacity positive pipeBuf_le).Grants capacity :=
  fun _ left some room => ⟨left, some, Nat.le_refl _, fun _ => rfl, Bytes.put_ne_none room⟩

theorem Pipe.bytes_holdsAtMost : (Pipe.bytes capacity positive pipeBuf_le).HoldsAtMost capacity :=
  Bytes.fits

end

/-! ## A pipe of pages -/

/-- How far the pages of a pipe are filled, the oldest first, and how far that one was read. -/
structure Filling (slots size start : Nat) (stops : List Nat) : Prop where
  unread : start < stops.headD 1
  filled : ∀ stop ∈ stops, 0 < stop ∧ stop ≤ size
  room : stops.length ≤ slots
  /-- What went into a page did not fit in the page before. -/
  apart : stops.IsChain fun stop next => size < stop + next

structure Pages (slots size : Nat) where
  start : Nat := 0
  stops : List Nat := []
  filling : Filling slots size start stops

namespace Pages

variable {slots size : Nat}

def empty : Pages slots size where
  filling := ⟨Nat.one_pos, by simp, Nat.zero_le _, List.isChain_nil⟩

def count (l : Pages slots size) : Nat := l.stops.sum - l.start

/-- How much of a `write` goes into an empty page. -/
def chunk (size left : Nat) : Nat := min left size

/-- The last page takes what a `write` has beside full pages, if it fits. -/
def merge (size : Nat) (stops : List Nat) (odd : Nat) : Option (List Nat) :=
  stops.getLast?.bind fun stop =>
    if 0 < odd ∧ stop + odd ≤ size then some (stops.dropLast ++ [stop + odd]) else none

/-- Pages that were read are free again. -/
def free : List Nat → Nat → Nat × List Nat
  | [], _ => (0, [])
  | stop :: stops, n => if n < stop then (n, stop :: stops) else free stops (n - stop)

theorem merge_eq_some {stops stops' : List Nat} {odd : Nat}
    (h : merge size stops odd = some stops') :
    ∃ front stop, stops = front ++ [stop] ∧ stops' = front ++ [stop + odd] ∧ 0 < odd ∧
      stop + odd ≤ size := by
  obtain ⟨stop, last, h⟩ := Option.bind_eq_some_iff.mp h
  obtain ⟨⟨some, fits⟩, h⟩ := Option.ite_none_right_eq_some.mp h
  exact ⟨stops.dropLast, stop, (List.dropLast_append_getLast? stop last).symm,
    (Option.some.inj h).symm, some, fits⟩

theorem merge_eq_none {stops : List Nat} {stop odd : Nat} (last : stop ∈ stops.getLast?)
    (h : merge size stops odd = none) : odd = 0 ∨ size < stop + odd := by
  rw [merge, Option.mem_def.mp last, Option.bind_some] at h
  split at h
  · cases h
  · next full => omega

/-- A page is taken where the last one has no room. -/
theorem lt_add_chunk {stops : List Nat} {stop left : Nat} (last : stop ∈ stops.getLast?)
    (filled : 0 < stop) (some : 0 < left) (full : merge size stops (left % size) = none) :
    size < stop + chunk size left := by
  have least := Nat.mod_le left size
  rw [chunk]
  obtain none | more := merge_eq_none last full
  · have whole := Nat.le_of_dvd some (Nat.dvd_of_mod_eq_zero none)
    omega
  · by_cases positive : 0 < size
    · have below := Nat.mod_lt left positive
      omega
    · omega

end Pages

namespace Filling

variable {slots size start : Nat} {stops : List Nat}

theorem apart_concat (h : Filling slots size start stops) {left : Nat} (some : 0 < left)
    (full : Pages.merge size stops (left % size) = none) :
    (stops ++ [Pages.chunk size left]).IsChain fun stop next => size < stop + next := by
  refine List.isChain_append.mpr ⟨h.apart, List.isChain_singleton _, ?_⟩
  intro stop last next hnext
  obtain rfl := Option.some.inj hnext
  have filled := (h.filled stop (List.mem_of_getLast? last)).1
  exact Pages.lt_add_chunk last filled some full

theorem merge (h : Filling slots size start stops) {odd : Nat} {stops' : List Nat}
    (merged : Pages.merge size stops odd = some stops') : Filling slots size start stops' := by
  obtain ⟨front, stop, rfl, rfl, some, fits⟩ := Pages.merge_eq_some merged
  have apart := List.isChain_append.mp h.apart
  refine ⟨?_, ?_, ?_, List.isChain_append.mpr ⟨apart.1, List.isChain_singleton _, ?_⟩⟩
  · have unread := h.unread
    cases front with
    | nil => exact unread.trans_le (Nat.le_add_right stop odd)
    | cons first front => exact unread
  · intro a ha
    obtain ha | ha := List.mem_append.mp ha
    · exact h.filled a (List.mem_append_left _ ha)
    · obtain rfl := List.mem_singleton.mp ha
      exact ⟨Nat.add_pos_right stop some, fits⟩
  · have room := h.room
    rw [List.length_append, List.length_singleton] at room ⊢
    exact room
  · intro a ha b hb
    obtain rfl := Option.some.inj hb
    exact (apart.2.2 a ha stop rfl).trans_le (Nat.add_le_add_left (Nat.le_add_right stop odd) a)

/-- A `write` that goes on in a page of its own leaves the last one with no room for it. -/
theorem concat (h : Filling slots size start stops) {left : Nat} (some : 0 < left)
    (positive : 0 < size) (full : Pages.merge size stops (left % size) = none)
    (room : stops.length < slots) :
    Filling slots size start (stops ++ [Pages.chunk size left]) := by
  refine ⟨?_, ?_, ?_, h.apart_concat some full⟩
  · have unread := h.unread
    cases stops with
    | nil => exact unread.trans_le (Nat.le_min.mpr ⟨some, positive⟩)
    | cons first stops => exact unread
  · intro a ha
    obtain ha | ha := List.mem_append.mp ha
    · exact h.filled a ha
    · obtain rfl := List.mem_singleton.mp ha
      exact ⟨Nat.le_min.mpr ⟨some, positive⟩, Nat.min_le_right _ _⟩
  · rw [List.length_append, List.length_singleton]
    exact room

/-- What is left after a read. -/
theorem free (h : Filling slots size start stops) (n : Nat) :
    Filling slots size (Pages.free stops n).1 (Pages.free stops n).2 := by
  induction stops generalizing n start with
  | nil => exact ⟨Nat.one_pos, by simp [Pages.free], Nat.zero_le _, List.isChain_nil⟩
  | cons stop stops ih =>
      rw [Pages.free]
      split
      · next short => exact { h with unread := short }
      · have rest : Filling slots size 0 stops := by
          refine ⟨?_, fun a ha => h.filled a (List.mem_cons_of_mem stop ha),
            (Nat.le_succ _).trans h.room, h.apart.tail⟩
          cases stops with
          | nil => exact Nat.one_pos
          | cons next stops =>
              exact (h.filled next (List.mem_cons_of_mem stop List.mem_cons_self)).1
        exact ih rest (n - stop)

end Filling

namespace Pages

variable {slots size : Nat}

/-- As a kernel does it: the last page takes what a `write` has beside full pages, if it can, and
the rest goes into pages of its own. -/
def put (l : Pages slots size) (left n : Nat) : Option (Pages slots size) :=
  match merged : merge size l.stops (left % size) with
  | some stops =>
      if n = left % size then some { start := l.start, stops, filling := l.filling.merge merged }
      else none
  | none =>
      if h : n = chunk size left ∧ 0 < left ∧ 0 < size ∧ l.stops.length < slots then
        some {
          start := l.start
          stops := l.stops ++ [n]
          filling := h.1 ▸ l.filling.concat h.2.1 h.2.2.1 merged h.2.2.2 }
      else none

def get (l : Pages slots size) (n : Nat) : Pages slots size where
  start := (free l.stops (l.start + n)).1
  stops := (free l.stops (l.start + n)).2
  filling := l.filling.free _

theorem put_eq {l l' : Pages slots size} {left n : Nat} (h : l.put left n = some l') :
    l'.start = l.start ∧ l'.stops.sum = l.stops.sum + n := by
  rw [put] at h
  split at h
  · next stops merged =>
      obtain ⟨same, h⟩ := Option.ite_none_right_eq_some.mp h
      obtain ⟨front, stop, before, rfl, -⟩ := merge_eq_some merged
      obtain rfl := Option.some.inj h
      refine ⟨rfl, ?_⟩
      have sum := congrArg List.sum before
      simp only [List.sum_append, List.sum_singleton] at sum ⊢
      omega
  · obtain ⟨taken, h⟩ := Option.dite_none_right_eq_some.mp h
    obtain rfl := Option.some.inj h
    exact ⟨rfl, List.sum_append.trans (by rw [List.sum_singleton])⟩

theorem start_le (l : Pages slots size) : l.start ≤ l.stops.sum := by
  obtain ⟨start, stops, filling⟩ := l
  have unread := filling.unread
  cases stops with
  | nil => exact Nat.le_of_lt_succ unread
  | cons stop stops => exact unread.le.trans (Nat.le_add_right stop stops.sum)

theorem count_put {l l' : Pages slots size} {left n : Nat} (h : l.put left n = some l') :
    l'.count = l.count + n := by
  obtain ⟨start, sum⟩ := put_eq h
  have before := l.start_le
  rw [count, count, start, sum]
  omega

theorem free_sum (stops : List Nat) {n : Nat} (there : n ≤ stops.sum) :
    (free stops n).1 + stops.sum = n + (free stops n).2.sum := by
  induction stops generalizing n with
  | nil =>
      obtain rfl := Nat.le_zero.mp there
      rfl
  | cons stop stops ih =>
      rw [free]
      split
      · rfl
      · rw [List.sum_cons] at there ⊢
        have rest := ih (n := n - stop) (by omega)
        omega

theorem count_get {l : Pages slots size} {n : Nat} (there : n ≤ l.count) :
    (l.get n).count + n = l.count := by
  have before := l.start_le
  have after := (l.get n).start_le
  rw [count] at there
  have sum := free_sum l.stops (n := l.start + n) (by omega)
  change (l.get n).start + l.stops.sum = l.start + n + (l.get n).stops.sum at sum
  rw [count, count]
  omega

theorem count_le (l : Pages slots size) : l.count ≤ slots * size := by
  have sum := List.sum_le_card_nsmul l.stops size fun stop h => (l.filling.filled stop h).2
  rw [smul_eq_mul] at sum
  exact (Nat.sub_le _ _).trans (sum.trans (Nat.mul_le_mul_right size l.filling.room))

/-- Neighbours that do not fit in one page fill more than half of the two. -/
theorem half_le_sum (stops : List Nat) (apart : stops.IsChain fun stop next => size < stop + next) :
    stops.length / 2 * (size + 1) ≤ stops.sum := by
  induction stops using List.twoStepInduction with
  | nil => simp
  | singleton stop => simp
  | cons_cons stop next stops ih =>
      obtain ⟨both, apart⟩ := List.isChain_cons_cons.mp apart
      have rest := ih apart.tail
      have half : (stop :: next :: stops).length / 2 = stops.length / 2 + 1 := by
        simp only [List.length_cons]
        omega
      rw [half, List.sum_cons, List.sum_cons, Nat.succ_mul]
      omega

/-- A `write` waits only if all pages are in use and the last one has no room. -/
theorem goesOn_or_full (l : Pages slots size) {pipeBuf left : Nat} (some : 0 < left)
    (positive : 0 < size) (pipeBuf_le : pipeBuf ≤ size) :
    GoesOn pipeBuf (l.put left) left ∨
      merge size l.stops (left % size) = none ∧ l.stops.length = slots := by
  cases merged : merge size l.stops (left % size) with
  | some stops =>
      obtain ⟨-, -, -, -, odd, -⟩ := merge_eq_some merged
      refine .inl ⟨left % size, odd, Nat.mod_le left size, fun short => ?_, ?_⟩
      · refine Nat.mod_eq_of_lt (Nat.lt_of_le_of_ne (short.trans pipeBuf_le) fun whole => ?_)
        rw [whole, Nat.mod_self] at odd
        exact Nat.lt_irrefl 0 odd
      · rw [put]
        split
        · rw [if_pos rfl]
          exact Option.some_ne_none _
        · next none => cases merged.symm.trans none
  | none =>
      by_cases room : l.stops.length < slots
      · refine .inl ⟨chunk size left, Nat.le_min.mpr ⟨some, positive⟩, Nat.min_le_left _ _,
          fun short => Nat.min_eq_left (short.trans pipeBuf_le), ?_⟩
        rw [put]
        split
        · next stops merged' => cases merged.symm.trans merged'
        · rw [dif_pos ⟨rfl, some, positive, room⟩]
          exact Option.some_ne_none _
      · exact .inr ⟨rfl, Nat.le_antisymm l.filling.room (Nat.not_lt.mp room)⟩

/-- Where a `write` waits, the pages are more than half full with what it has left. -/
theorem half_lt_of_full {l : Pages slots size} {left : Nat} (some : 0 < left)
    (full : merge size l.stops (left % size) = none) (used : l.stops.length = slots)
    (positive : 0 < slots) : slots / 2 * (size + 1) < l.count + left := by
  obtain ⟨start, stops, filling⟩ := l
  have unread := filling.unread
  cases stops with
  | nil => exact absurd positive (used ▸ Nat.lt_irrefl 0)
  | cons stop stops =>
      have half := half_le_sum _ (filling.apart_concat some full).tail
      have most : chunk size left ≤ left := Nat.min_le_left _ _
      change start < stop at unread
      simp only [List.cons_append, List.tail_cons, List.length_append, List.length_singleton,
        List.sum_append, List.sum_singleton] at half
      rw [show stops.length + 1 = slots from used] at half
      show slots / 2 * (size + 1) < stop + stops.sum - start + left
      omega

end Pages

/-- A pipe of so many pages. -/
def Pipe.pages {pipeBuf : Nat} (slots size : Nat) (some : 0 < slots) (positive : 0 < size)
    (pipeBuf_le : pipeBuf ≤ size) : Pipe pipeBuf where
  Layout := Pages slots size
  empty := Pages.empty
  size := Pages.count
  put := Pages.put
  get := Pages.get
  size_empty := rfl
  size_put := Pages.count_put
  size_get := Pages.count_get
  put_empty {l left} nothing more := by
    obtain on | ⟨-, used⟩ := l.goesOn_or_full more positive pipeBuf_le
    · exact on
    · obtain ⟨start, stops, filling⟩ := l
      have unread := filling.unread
      cases stops with
      | nil => exact absurd some (used ▸ Nat.lt_irrefl 0)
      | cons stop stops =>
          change start < stop at unread
          change stop + stops.sum - start = 0 at nothing
          omega

section

variable {pipeBuf slots size : Nat} {some : 0 < slots} {positive : 0 < size}
  {pipeBuf_le : pipeBuf ≤ size}

theorem Pipe.pages_grants :
    (Pipe.pages slots size some positive pipeBuf_le).Grants (slots / 2 * (size + 1)) := by
  intro l left more room
  obtain on | ⟨full, used⟩ := Pages.goesOn_or_full l more positive pipeBuf_le
  · exact on
  · exact absurd room (Nat.not_le.mpr (Pages.half_lt_of_full more full used some))

theorem Pipe.pages_holdsAtMost :
    (Pipe.pages slots size some positive pipeBuf_le).HoldsAtMost (slots * size) :=
  Pages.count_le

end
