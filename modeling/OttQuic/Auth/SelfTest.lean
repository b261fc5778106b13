import Mathlib.Logic.Function.Iterate
import OttQuic.Auth.KeySchedule
import OttQuic.Lib.PackedWords

/-!
# The self-test of `_crypt_blowfish_rn`

Every call hashes a password of its own with the lowest cost, and gives no hash when the result is not the one that the
source lists. Here the test is evaluated, with the tables of Blowfish in two numbers: it passes for every subtype that
`BF_crypt` knows (`bfSelfTest_known`).
-/

namespace OttQuic.Auth

open BigEndian CString PackedWords

/-! ### Blowfish on packed tables -/

/-- A block as one number. -/
def num (block : UInt32 × UInt32) : Nat := pair block.1.toNat block.2.toNat

/-- The word of a box that eight bits of `L` pick. -/
def packedBox (S box L shift : Nat) : Nat :=
  field S (Nat.add (Nat.mul 256 box) (Nat.land (Nat.shiftRight L shift) 0xff))

/-- `BF_ROUND`. -/
def packedRound (S P L R N : Nat) : Nat :=
  Nat.xor (Nat.xor R (field P (Nat.succ N)))
    (sum (Nat.xor (sum (packedBox S 1 L 16) (packedBox S 0 L 24)) (packedBox S 2 L 8)) (packedBox S 3 L 0))

/-- Two rounds. -/
def packedRounds (S P block k : Nat) : Nat :=
  force (field block 0) fun L => force (field block 1) fun R =>
    force (packedRound S P L R (Nat.mul 2 k)) fun R =>
      force (packedRound S P R L (Nat.succ (Nat.mul 2 k))) fun L => pair L R

/-- `BF_ENCRYPT`. -/
def packedEncrypt (S P block : Nat) : Nat :=
  force (foldForced (packedRounds S P) (List.range 8) (Nat.xor block (field P 0))) fun rounds =>
    pair (Nat.xor (field rounds 1) (field P 17)) (field rounds 0)

/-- A part of a sweep: the table whose words are replaced is `table`. -/
def packedReplace {α : Type} (encrypt : Nat → Nat → Nat) (mix : Nat → Nat) :
    List Nat → Nat → Nat → (Nat → Nat → α) → α
  | [], table, block, k => k table block
  | i :: is, table, block, k =>
    force (encrypt table (Nat.xor block (mix i))) fun block =>
      force (put (put table (Nat.mul 2 i) (field block 0)) (Nat.succ (Nat.mul 2 i)) (field block 1)) fun table =>
        packedReplace encrypt mix is table block k

def packedSweep {α : Type} (mixP mixS : Nat → Nat) (S P : Nat) (k : Nat → Nat → α) : α :=
  packedReplace (fun P => packedEncrypt S P) mixP (List.range 9) P 0 fun P block =>
    packedReplace (fun S => packedEncrypt S P) mixS (List.range 512) S block fun S _ => k S P

/-- Half a pass of the main loop. -/
def packedHalf {α : Type} (words S P : Nat) (k : Nat → Nat → α) : α :=
  force (Nat.xor P words) fun P => packedSweep (fun _ => 0) (fun _ => 0) S P k

/-- What `BF_crypt` encrypts in the end, with the lowest cost. -/
def packedOutput (first second expanded salt S P : Nat) : List Nat :=
  packedSweep (fun i => if i % 2 = 0 then first else second) (fun i => if i % 2 = 0 then second else first) S P
    fun S P => packedHalf expanded S P fun S P => packedHalf salt S P fun S P =>
      bfMagicW.map fun block => foldForced (fun block _ => packedEncrypt S P block) (List.range 64) (num block)

/-- The tables of `ctx`, packed. -/
structure BfCtx.Packed (ctx : BfCtx) (S P : Nat) : Prop where
  boxes : Packs ctx.S S
  keys : Packs ctx.P P

variable {ctx : BfCtx} {S P : Nat} {α : Type}

theorem BfCtx.packed {boxes : Vector UInt32 (4 * 256)} {keys : BfKey} (hboxes : Packs boxes S) (hkeys : Packs keys P) :
    BfCtx.Packed ⟨boxes, keys⟩ S P :=
  ⟨hboxes, hkeys⟩

@[simp] theorem field_num_zero (block : UInt32 × UInt32) : field (num block) 0 = block.1.toNat :=
  field_pair_zero block.1.toNat_lt

@[simp] theorem field_num_one (block : UInt32 × UInt32) : field (num block) 1 = block.2.toNat := by
  rw [num, field_pair_succ block.1.toNat_lt, field_zero_of_lt block.2.toNat_lt]

theorem num_xor (block mix : UInt32 × UInt32) :
    Nat.xor (num block) (num mix) = num (block.1 ^^^ mix.1, block.2 ^^^ mix.2) := by
  rw [num, num, pair_xor block.1.toNat_lt mix.1.toNat_lt, ← UInt32.toNat_xor, ← UInt32.toNat_xor, num]

theorem num_left (x : UInt32) : num (x, 0) = x.toNat := by
  show x.toNat ||| 0 <<< 32 = x.toNat
  rw [Nat.zero_shiftLeft, Nat.or_zero]

theorem packedBox_eq (h : Packs ctx.S S) (box : Fin 4) (L : UInt32) (shift : Nat) {index : UInt8}
    (hindex : index.toNat = (L.toNat >>> shift) % 2 ^ 8) :
    packedBox S box.val L.toNat shift = (ctx.box box index).toNat := by
  have hbyte : Nat.land (Nat.shiftRight L.toNat shift) 0xff = index.toNat :=
    (Nat.and_two_pow_sub_one_eq_mod (L.toNat >>> shift) 8).trans hindex.symm
  rw [packedBox, hbyte]
  exact h.get ⟨256 * box.val + index.toNat, _⟩

theorem packedRound_eq (h : ctx.Packed S P) (L R : UInt32) (N : Fin 16) :
    packedRound S P L.toNat R.toNat N.val = (ctx.round L R N).toNat := by
  have h0 : packedBox S 0 L.toNat 24 = (ctx.box 0 (L >>> 24).toUInt8).toNat := packedBox_eq h.boxes 0 L 24 (by simp)
  have h1 : packedBox S 1 L.toNat 16 = (ctx.box 1 (L >>> 16).toUInt8).toNat := packedBox_eq h.boxes 1 L 16 (by simp)
  have h2 : packedBox S 2 L.toNat 8 = (ctx.box 2 (L >>> 8).toUInt8).toNat := packedBox_eq h.boxes 2 L 8 (by simp)
  have h3 : packedBox S 3 L.toNat 0 = (ctx.box 3 L.toUInt8).toNat := packedBox_eq h.boxes 3 L 0 (by simp)
  have hkey : field P (Nat.succ N.val) = (ctx.P.get N.succ.castSucc).toNat := h.keys.get N.succ.castSucc
  have hxor (x y : UInt32) : Nat.xor x.toNat y.toNat = (x ^^^ y).toNat := (UInt32.toNat_xor x y).symm
  rw [packedRound, h0, h1, h2, h3, hkey]
  simp only [hxor, sum_toNat]
  rfl

theorem even_round_lt (k : Fin 8) : 2 * k.val < 16 := by omega

theorem odd_round_lt (k : Fin 8) : 2 * k.val + 1 < 16 := by omega

/-- Two rounds of `encrypt`. -/
def BfCtx.rounds (ctx : BfCtx) (block : UInt32 × UInt32) (k : Fin 8) : UInt32 × UInt32 :=
  let R := ctx.round block.1 block.2 ⟨2 * k.val, even_round_lt k⟩
  (ctx.round R block.1 ⟨2 * k.val + 1, odd_round_lt k⟩, R)

theorem packedRounds_eq (h : ctx.Packed S P) (block : UInt32 × UInt32) (k : Fin 8) :
    packedRounds S P (num block) k.val = num (ctx.rounds block k) := by
  have hR := packedRound_eq h block.1 block.2 ⟨2 * k.val, by omega⟩
  have hL := packedRound_eq h (ctx.rounds block k).2 block.1 ⟨2 * k.val + 1, by omega⟩
  simp only [packedRounds, force_eq, field_num_zero, field_num_one]
  show pair (packedRound S P (packedRound S P block.1.toNat block.2.toNat (2 * k.val)) block.1.toNat
    (2 * k.val + 1)) (packedRound S P block.1.toNat block.2.toNat (2 * k.val)) = _
  rw [hR]
  exact congrArg (pair · _) hL

theorem packedEncrypt_eq (h : ctx.Packed S P) (block : UInt32 × UInt32) :
    packedEncrypt S P (num block) = num (ctx.encrypt block) := by
  have hfirst : Nat.xor (num block) (field P 0) = num (block.1 ^^^ ctx.P.get 0, block.2) := by
    have hkey : field P 0 = (ctx.P.get 0).toNat := h.keys.get 0
    rw [hkey, ← num_left, num_xor, UInt32.xor_zero]
  have hlast : field P 17 = (ctx.P.get (Fin.last _)).toNat := h.keys.get (Fin.last _)
  have hrounds : foldForced (packedRounds S P) (List.range 8) (num (block.1 ^^^ ctx.P.get 0, block.2)) =
      num ((List.finRange 8).foldl ctx.rounds (block.1 ^^^ ctx.P.get 0, block.2)) := by
    rw [foldForced_eq, ← List.map_coe_finRange_eq_range, List.foldl_map]
    exact List.foldl_hom num fun block k => packedRounds_eq h block k
  rw [packedEncrypt, force_eq, hfirst, hrounds, field_num_zero, field_num_one, hlast]
  exact congrArg (pair · _) (UInt32.toNat_xor _ _).symm

theorem packedIterate_eq (h : ctx.Packed S P) (n : Nat) (block : UInt32 × UInt32) :
    foldForced (fun block _ => packedEncrypt S P block) (List.range n) (num block) = num (ctx.encrypt^[n] block) := by
  have hsemi : Function.Semiconj num ctx.encrypt (packedEncrypt S P) := fun block => (packedEncrypt_eq h block).symm
  rw [foldForced_eq, List.foldl_const, List.length_range]
  exact (hsemi.iterate_right n block).symm

/-! ### Sweeps -/

theorem packedReplace_eq {n : Nat} {R : BfCtx → Nat → Prop} {encrypt : Nat → Nat → Nat} {mix : Nat → Nat}
    {mixed : Nat → UInt32 × UInt32} (place : Fin n → BfCtx → UInt32 × UInt32 → BfCtx)
    (hencrypt : ∀ {ctx table}, R ctx table → ∀ block, encrypt table (num block) = num (ctx.encrypt block))
    (hplace : ∀ {ctx table}, R ctx table → ∀ i block, R (place i ctx block)
      (put (put table (2 * i.val) block.1.toNat) (2 * i.val + 1) block.2.toNat))
    (hmix : ∀ i, mix i = num (mixed i)) (is : List (Fin n)) {table : Nat} (block : UInt32 × UInt32)
    (h : R ctx table) :
    let state := is.foldl (fun state i => BfCtx.replace (mixed i.val) (place i) state) (ctx, block)
    ∃ table', R state.1 table' ∧ ∀ k : Nat → Nat → α,
      packedReplace encrypt mix (is.map Fin.val) table (num block) k = k table' (num state.2) := by
  induction is generalizing ctx table block with
  | nil => exact ⟨table, h, fun _ => rfl⟩
  | cons i is ih =>
      simp only [List.map_cons, packedReplace, force_eq, List.foldl_cons, hmix, num_xor, hencrypt h, field_num_zero,
        field_num_one]
      exact ih _ (hplace h i _)

theorem packedSweep_eq {mixP mixS : Nat → Nat} {mixedP mixedS : Nat → UInt32 × UInt32}
    (hmixP : ∀ i, mixP i = num (mixedP i)) (hmixS : ∀ i, mixS i = num (mixedS i)) (h : ctx.Packed S P) :
    ∃ S' P', (ctx.sweep mixedP mixedS).Packed S' P' ∧
      ∀ k : Nat → Nat → α, packedSweep mixP mixS S P k = k S' P' := by
  simp only [packedSweep]
  rw [← List.map_coe_finRange_eq_range, ← List.map_coe_finRange_eq_range]
  -- the words of `P`
  obtain ⟨P', hP, hreplaceP⟩ := packedReplace_eq (R := fun ctx P => ctx.Packed S P) (fun i ctx block => { ctx with
      P := (ctx.P.set (2 * i.val) block.1 (by omega)).set (2 * i.val + 1) block.2 (by omega) })
    (fun h => packedEncrypt_eq h)
    (fun h i block => ⟨h.boxes, (h.keys.set (by omega) block.1).set (by omega) block.2⟩) hmixP (List.finRange 9) (0, 0) h
  -- the boxes
  obtain ⟨S', hS, hreplaceS⟩ := packedReplace_eq (R := fun ctx S => ctx.Packed S P') (fun i ctx block => { ctx with
      S := (ctx.S.set (2 * i.val) block.1 (by omega)).set (2 * i.val + 1) block.2 (by omega) })
    (fun h => packedEncrypt_eq h)
    (fun h i block => ⟨(h.boxes.set (by omega) block.1).set (by omega) block.2, h.keys⟩) hmixS (List.finRange 512) _ hP
  exact ⟨S', P', hS, fun k => (hreplaceP _).trans (hreplaceS _)⟩

theorem packedHalf_eq {words : Nat} {f : Fin 18 → UInt32} (h : ctx.Packed S P)
    (hwords : ∀ i : Fin 18, field words i.val = (f i).toNat) :
    ∃ S' P', (BfCtx.body { ctx with P := .ofFn fun i => ctx.P.get i ^^^ f i }).Packed S' P' ∧
      ∀ k : Nat → Nat → α, packedHalf words S P k = k S' P' := by
  have hzero (i : Nat) : (fun _ => 0 : Nat → Nat) i = num ((fun _ => (0, 0)) i) := (num_left 0).symm
  have hmixed := BfCtx.packed h.boxes (h.keys.xor hwords)
  obtain ⟨S', P', h', hrun⟩ := packedSweep_eq (α := α) hzero hzero hmixed
  refine ⟨S', P', h', fun k => ?_⟩
  rw [packedHalf, force_eq, hrun]

theorem packedOutput_eq {salt : Nat → UInt32} {expanded : BfKey} {expandedNumber saltNumber : Nat} (h : ctx.Packed S P)
    (hexpanded : ∀ i : Fin 18, field expandedNumber i.val = (expanded.get i).toNat)
    (hsalt : ∀ i : Fin 18, field saltNumber i.val = (salt (i.val % 4)).toNat) :
    packedOutput (num (salt 0, salt 1)) (num (salt 2, salt 3)) expandedNumber saltNumber S P =
      bfMagicW.map fun block => num ((bfPass expanded salt (ctx.sweep
        (fun i => if i % 2 = 0 then (salt 0, salt 1) else (salt 2, salt 3))
        (fun i => if i % 2 = 0 then (salt 2, salt 3) else (salt 0, salt 1)))).encrypt^[64] block) := by
  have hmix (i : Nat) (b c : UInt32 × UInt32) :
      (if i % 2 = 0 then num b else num c) = num (if i % 2 = 0 then b else c) := (apply_ite num _ _ _).symm
  -- the sweep with the salt, and then the key and the salt in turn
  obtain ⟨S₁, P₁, h₁, hrun₁⟩ := packedSweep_eq (α := List Nat) (fun i => hmix i (salt 0, salt 1) (salt 2, salt 3))
    (fun i => hmix i (salt 2, salt 3) (salt 0, salt 1)) h
  obtain ⟨S₂, P₂, h₂, hrun₂⟩ := packedHalf_eq (α := List Nat) h₁ hexpanded
  obtain ⟨S₃, P₃, h₃, hrun₃⟩ := packedHalf_eq (α := List Nat) h₂ hsalt
  rw [packedOutput, hrun₁, hrun₂, hrun₃]
  exact List.map_congr_left fun block _ => packedIterate_eq h₃ 64 block

/-! ### The test -/

/-- `bfDigest` with the lowest cost, on packed tables. -/
def packedDigest (flags : UInt8) (saltBytes key : Bytes) : Bytes :=
  let salt := bfSwap saltBytes
  let words := bfSetKey key flags
  let output := packedOutput (num (salt 0, salt 1)) (num (salt 2, salt 3)) (pack words.1.toList)
    (pack ((List.range 18).map fun i => salt (i % 4))) (pack bfInitBoxes) (pack words.2.toList)
  (output.flatMap fun block => bigEndian 4 (field block 0) ++ bigEndian 4 (field block 1)).take 23

theorem packedDigest_eq (flags : UInt8) (saltBytes key : Bytes) :
    packedDigest flags saltBytes key = bfDigest flags 0 saltBytes key := by
  have hboxes : Packs (.ofFn fun i : Fin (4 * 256) => bfInitBoxes.getD i.val 0) (pack bfInitBoxes) :=
    packs_pack fun _ => rfl
  have hsalt (i : Fin 18) : field (pack ((List.range 18).map fun i => bfSwap saltBytes (i % 4))) i.val =
      (bfSwap saltBytes (i.val % 4)).toNat := by
    rw [field_pack]
    simp
  have houtput := packedOutput_eq (BfCtx.packed hboxes (packs_toList (bfSetKey key flags).2))
    (packs_toList (bfSetKey key flags).1).get hsalt
  simp only [packedDigest, houtput, List.flatMap_map, field_num_zero, field_num_one]
  rfl

theorem flagsBySubtype_known {c : UInt8} (h : flagsBySubtype c ≠ 0) : c = 97 ∨ c = 98 ∨ c = 120 ∨ c = 121 := by
  have hall : ∀ n : Fin 256, flagsBySubtype (UInt8.ofNat n) ≠ 0 → UInt8.ofNat n = 97 ∨ UInt8.ofNat n = 98 ∨
      UInt8.ofNat n = 120 ∨ UInt8.ofNat n = 121 := by
    decide +kernel
  have hc := hall ⟨c.toNat, c.toNat_lt⟩
  rw [UInt8.ofNat_toNat] at hc
  exact hc h

/-- The key of the test. -/
def testKey : Bytes := ascii "8b " ++ [0xd0, 0xc1, 0xd2, 0xcf, 0xcc, 0xd8]

/-- The salt of the test. -/
def testSalt : Bytes := [113, 215, 159, 130, 24, 163, 146, 89, 167, 162, 154, 171, 178, 219, 175, 195]

theorem testDigest : bfEncode (bfDigest 2 0 testSalt testKey) = ascii "i1D709vfamulimlGcq0qq3UvuUasvEa" := by
  rw [← packedDigest_eq]
  decide +kernel

theorem testDigest_bug : bfEncode (bfDigest 1 0 testSalt testKey) = ascii "VUrPmXD6q/nVSSp7pNDhCR9071IfIRe" := by
  rw [← packedDigest_eq]
  decide +kernel

theorem testDigest_y : bfDigest 4 0 testSalt testKey = bfDigest 2 0 testSalt testKey := by
  have hkey : bfSetKey testKey 4 = bfSetKey testKey 2 := by decide +kernel
  rw [bfDigest, hkey]
  rfl

/-- The setting of the test. -/
def testSetting (subtype : UInt8) : Bytes := ascii "$2" ++ [subtype] ++ ascii "$00$abcdefghijklmnopqrstuu"

theorem bfCrypt_test {subtype : UInt8} (h : flagsBySubtype subtype ≠ 0) :
    bfCrypt testKey (testSetting subtype) 61 1 =
      some (testSetting subtype ++ bfEncode (bfDigest (flagsBySubtype subtype) 0 testSalt testKey)) := by
  have hfields : bfSettingValid (testSetting subtype) = true ∧ bfCost (testSetting subtype) = 0 ∧
      bfDecode 16 ((testSetting subtype).drop 7) = some testSalt ∧
      (testSetting subtype).take 28 ++ [bfItoa64 (bfAtoi64 ((testSetting subtype).getD 28 0 - 0x20) &&& 0x30)] =
        testSetting subtype := by
    rcases flagsBySubtype_known h with rfl | rfl | rfl | rfl <;> decide +kernel
  obtain ⟨hvalid, hcost, hsalt, hsetting⟩ := hfields
  have hsubtype : (testSetting subtype).getD 2 0 = subtype := rfl
  rw [bfCrypt, if_neg (by decide), hvalid, if_neg (by decide), hcost, if_neg (by decide), hsalt]
  simp only [hsubtype, hsetting]

/-- **The self-test passes**, for every subtype that `BF_crypt` knows. -/
theorem bfSelfTest_known {subtype : UInt8} (h : flagsBySubtype subtype ≠ 0) : bfSelfTest subtype = true := by
  have hdigest : bfEncode (bfDigest (flagsBySubtype subtype) 0 testSalt testKey) =
      if flagsBySubtype subtype &&& 1 ≠ 0 then ascii "VUrPmXD6q/nVSSp7pNDhCR9071IfIRe"
      else ascii "i1D709vfamulimlGcq0qq3UvuUasvEa" := by
    rcases flagsBySubtype_known h with rfl | rfl | rfl | rfl
    · exact testDigest
    · exact (congrArg bfEncode testDigest_y).trans testDigest
    · exact testDigest_bug
    · exact (congrArg bfEncode testDigest_y).trans testDigest
  have hcrypt := bfCrypt_test h
  rw [hdigest] at hcrypt
  unfold bfSelfTest
  refine decide_eq_true ⟨hcrypt, ?_⟩
  decide +kernel

end OttQuic.Auth
