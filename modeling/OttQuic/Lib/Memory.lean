import OttQuic.Lib.CString

/-!
# Checked memory

A block of memory is a list of bytes, and a pointer into it is an offset, which may lie outside. Every access
is checked: what would be undefined in C is a `Fault` and ends the run, so a run that returns has stayed inside
its blocks. For an access at an offset that lies inside there is one equation that says what it gives.
-/

namespace Memory

open CString

/-- The bytes of an object; none is larger than `PTRDIFF_MAX`. -/
abbrev Object : Type := { bytes : List UInt8 // bytes.length < 2 ^ 63 }

/-- What a run can come to instead of a result. -/
inductive Fault where
  /-- A byte outside the block is read. -/
  | read
  /-- A byte outside the block is written. -/
  | write
  /-- A pointer difference is negative. -/
  | difference
  /-- A loop is still running after the passes it is given. -/
  | passes
  deriving DecidableEq

abbrev Checked (α : Type) := Except Fault α

theorem bind_ok {α β : Type} (a : α) (f : α → Checked β) : ((.ok a : Checked α) >>= f) = f a := rfl

/-- The `n` bytes at `p`. -/
def load (block : List UInt8) (p : Int) (n : Nat) : Checked (List UInt8) :=
  if 0 ≤ p ∧ p + n ≤ block.length then .ok ((block.drop p.toNat).take n) else .error .read

/-- The block after the bytes have been written at `p`. -/
def store (block : List UInt8) (p : Int) (bytes : List UInt8) : Checked (List UInt8) :=
  if 0 ≤ p ∧ p + bytes.length ≤ block.length then
    .ok (block.take p.toNat ++ bytes ++ block.drop (p.toNat + bytes.length))
  else .error .write

/-- `(size_t)(q - p)`. -/
def distance (q p : Int) : Checked Nat := if p ≤ q then .ok (q - p).toNat else .error .difference

/-- The string at `p`, whose NUL has to be in the block. -/
def text (block : List UInt8) (p : Int) : Checked (List UInt8) :=
  if 0 ≤ p ∧ 0 ∈ block.drop p.toNat then .ok (ofMemory (block.drop p.toNat)) else .error .read

/-- `strstr` of the string at `p`. -/
def strstrAt (block : List UInt8) (p : Int) (word : List UInt8) : Checked (Option Int) := do
  let s ← text block p
  return (strstr word s).map fun rest => p + (s.length - rest.length : Int)

/-- `strncmp(p, word, strlen(word)) == 0`: no byte is read after one that differs. -/
def strncmpAt (block : List UInt8) : List UInt8 → Int → Checked Bool
  | [], _ => .ok true
  | c :: word, p => do
    let byte ← load block p 1
    if byte = [c] then strncmpAt block word (p + 1) else .ok false

variable {block bytes s tail word : List UInt8} {n p q : Nat}

theorem load_ok (h : p + n ≤ block.length) : load block p n = .ok ((block.drop p).take n) :=
  if_pos ⟨by omega, by omega⟩

theorem load_one (h : p < block.length) : load block p 1 = .ok [block[p]] := by
  rw [load_ok h, List.drop_eq_getElem_cons h]
  rfl

theorem store_ok (h : p + bytes.length ≤ block.length) :
    store block p bytes = .ok (block.take p ++ bytes ++ block.drop (p + bytes.length)) :=
  if_pos ⟨by omega, by omega⟩

theorem store_front (h : bytes.length ≤ block.length) :
    store block 0 bytes = .ok (bytes ++ block.drop bytes.length) := by
  have hstore := @store_ok block bytes 0 (by omega)
  rwa [List.take_zero, List.nil_append, Nat.zero_add] at hstore

theorem store_append (h : bytes.length ≤ tail.length) :
    store (s ++ tail) s.length bytes = .ok (s ++ bytes ++ tail.drop bytes.length) := by
  have hfits : s.length + bytes.length ≤ (s ++ tail).length := by
    rw [List.length_append]
    omega
  rw [store_ok hfits, List.take_left, List.drop_length_add_append]

theorem distance_ok (h : p ≤ q) : distance q p = .ok (q - p) := by
  rw [distance, if_pos (by omega)]
  congr 1
  omega

/-! ### Strings in a block -/

theorem text_ok (hs : 0 ∉ s) (hp : p ≤ s.length) : text (s ++ 0 :: tail) p = .ok (s.drop p) := by
  have hdrop : (s ++ 0 :: tail).drop p = s.drop p ++ 0 :: tail := List.drop_append_of_le_length hp
  have hnul : 0 ∈ (s ++ 0 :: tail).drop p := by
    rw [hdrop]
    exact List.mem_append_right _ List.mem_cons_self
  rw [text, if_pos ⟨by omega, hnul⟩, Int.toNat_natCast, hdrop, ofMemory,
    takeWhile_append_cons fun hmem => hs (List.mem_of_mem_drop hmem)]

theorem strstrAt_ok (hs : 0 ∉ s) (hp : p ≤ s.length) :
    strstrAt (s ++ 0 :: tail) p word =
      .ok ((strstr word (s.drop p)).map fun rest => ((s.length - rest.length : Nat) : Int)) := by
  rw [strstrAt, text_ok hs hp, bind_ok]
  cases hfound : strstr word (s.drop p) with
  | none => rfl
  | some rest =>
      have hle : rest.length ≤ (s.drop p).length := (strstr_some hfound).1.length_le
      rw [List.length_drop] at hle
      rw [Option.map_some, Option.map_some, List.length_drop]
      show Except.ok _ = Except.ok _
      congr 2
      omega

theorem strncmpAt_ok (hword : 0 ∉ word) (hp : p ≤ s.length) :
    strncmpAt (s ++ 0 :: tail) word p = .ok (word.isPrefixOf (s.drop p)) := by
  induction word generalizing p with
  | nil => rfl
  | cons c word ih =>
      obtain ⟨hc, hrest⟩ := not_or.mp (mt List.mem_cons.mpr hword)
      have hlt : p < (s ++ 0 :: tail).length := by
        rw [List.length_append, List.length_cons]
        omega
      rw [strncmpAt, load_one hlt, bind_ok]
      by_cases hend : p = s.length
      · -- at the NUL
        subst hend
        rw [List.getElem_append_right (Nat.le_refl _), List.drop_length]
        simp only [Nat.sub_self, List.getElem_cons_zero]
        rw [if_neg (fun heq => hc (List.cons.inj heq).1)]
        rfl
      · have hin : p < s.length := by omega
        rw [List.getElem_append_left hin, List.drop_eq_getElem_cons hin]
        by_cases hsame : s[p] = c
        · rw [if_pos (by rw [hsame]), show ((p : Int) + 1) = ((p + 1 : Nat) : Int) from rfl, ih hrest hin]
          rw [List.isPrefixOf_cons_cons, hsame, beq_self_eq_true, Bool.true_and]
        · rw [if_neg (fun heq => hsame (List.cons.inj heq).1), List.isPrefixOf_cons_cons,
            beq_false_of_ne (Ne.symm hsame), Bool.false_and]

/-! ### Printing into a block -/

/-- What `snprintf` returns for a text of this length. -/
def printed (length : Nat) : Int := if length < 2 ^ 31 then length else -1

/-- `snprintf(block + p, room, …)`: at most `room` bytes are written, and the last of them is a NUL. -/
def snprintfAt (block : List UInt8) (p : Int) (room : Nat) (text : List UInt8) : Checked (Int × List UInt8) :=
  if room = 0 then .ok (printed text.length, block)
  else do
    let block ← store block p (text.take (room - 1) ++ [0])
    .ok (printed text.length, block)

/-- `pos + (size_t)n`, as a `size_t`. -/
def advance (pos : Nat) (n : Int) : Nat := (pos + (n % 2 ^ 64).toNat) % 2 ^ 64

theorem advance_printed {pos length : Nat} (hpos : pos < 2 ^ 63) (hlength : length < 2 ^ 31) :
    advance pos (printed length) = pos + length := by
  rw [advance, printed, if_pos hlength]
  omega

theorem store_behind (hs : s <+: block) (hbytes : s.length + bytes.length ≤ block.length) :
    ∃ block', store block s.length bytes = .ok block' ∧ block'.length = block.length ∧ s ++ bytes <+: block' := by
  refine ⟨_, store_ok hbytes, ?_, ?_⟩
  · rw [List.length_append, List.length_append, List.length_take, List.length_drop]
    omega
  · rw [← List.prefix_iff_eq_take.mp hs]
    exact List.prefix_append _ _

theorem snprintfAt_ok (hs : s <+: block) (hroom : s.length < block.length) (text : List UInt8) :
    ∃ block', snprintfAt block s.length (block.length - s.length) text = .ok (printed text.length, block') ∧
      block'.length = block.length ∧ s ++ (text.take (block.length - s.length - 1) ++ [0]) <+: block' := by
  have hwrite : s.length + (text.take (block.length - s.length - 1) ++ [0]).length ≤ block.length := by
    have hcut := List.length_take_le (block.length - s.length - 1) text
    rw [List.length_append, List.length_singleton]
    omega
  obtain ⟨block', hstore, hlength, hprefix⟩ := store_behind hs hwrite
  refine ⟨block', ?_, hlength, hprefix⟩
  rw [snprintfAt, if_neg (by omega), hstore]
  rfl

theorem snprintfAt_fits (hs : s <+: block) {text : List UInt8} (hfits : s.length + text.length < block.length) :
    ∃ block', snprintfAt block s.length (block.length - s.length) text = .ok (printed text.length, block') ∧
      block'.length = block.length ∧ s ++ text ++ [0] <+: block' := by
  obtain ⟨block', hprint, hlength, hprefix⟩ := snprintfAt_ok hs (by omega) text
  rw [List.take_of_length_le (by omega), ← List.append_assoc] at hprefix
  exact ⟨block', hprint, hlength, hprefix⟩

end Memory
