import Mathlib.Data.List.FinRange
import OttQuic.Auth.BlowfishTables
import OttQuic.Lib.Base64
import OttQuic.Lib.ByteWord
import OttQuic.Lib.CString
import OttQuic.Lib.Looped

/-!
# Blowfish password hashing (`crypt_blowfish.c`)

`BF_crypt` reads a setting (the subtype, the logarithm of the number of passes, and a salt), sets up Blowfish with the
password and the salt in turn, and encrypts a fixed text with what has come out. The hash is the setting and 23 bytes
of that, in digits of six bits.

A key is a C string, so `BF_set_key` meets its NUL where the list ends.
-/

namespace OttQuic.Auth

open BigEndian ByteWord CString

/-! ### Digits of six bits -/

/-- `BF_itoa64`. -/
def bfItoa64 (digit : UInt8) : UInt8 :=
  (ascii "./ABCDEFGHIJKLMNOPQRSTUVWXYZabcdefghijklmnopqrstuvwxyz0123456789").getD digit.toNat 0

/-- `BF_atoi64`. -/
def bfAtoi64 (index : UInt8) : UInt8 :=
  List.getD
    [64, 64, 64, 64, 64, 64, 64, 64, 64, 64, 64, 64, 64, 64, 0, 1,
     54, 55, 56, 57, 58, 59, 60, 61, 62, 63, 64, 64, 64, 64, 64, 64,
     64, 2, 3, 4, 5, 6, 7, 8, 9, 10, 11, 12, 13, 14, 15, 16,
     17, 18, 19, 20, 21, 22, 23, 24, 25, 26, 27, 64, 64, 64, 64, 64,
     64, 28, 29, 30, 31, 32, 33, 34, 35, 36, 37, 38, 39, 40, 41, 42,
     43, 44, 45, 46, 47, 48, 49, 50, 51, 52, 53, 64, 64, 64, 64, 64] index.toNat 0

/-- `BF_safe_atoi64`; below 32 the subtraction wraps. -/
def bfSafeAtoi64 (src : UInt8) : Option UInt8 :=
  if src < 0x20 ∨ src - 0x20 ≥ 0x60 then none
  else
    let digit := bfAtoi64 (src - 0x20)
    if digit > 63 then none else some digit

/-- `BF_decode`, when it returns `0`; `size` is positive. -/
def bfDecode : Nat → Bytes → Option Bytes
  | 0, _ => some []
  | 1, src => do
    let c1 ← bfSafeAtoi64 (src.getD 0 0)
    let c2 ← bfSafeAtoi64 (src.getD 1 0)
    return [c1 <<< 2 ||| (c2 &&& 0x30) >>> 4]
  | 2, src => do
    let c1 ← bfSafeAtoi64 (src.getD 0 0)
    let c2 ← bfSafeAtoi64 (src.getD 1 0)
    let c3 ← bfSafeAtoi64 (src.getD 2 0)
    return [c1 <<< 2 ||| (c2 &&& 0x30) >>> 4, (c2 &&& 0x0F) <<< 4 ||| (c3 &&& 0x3C) >>> 2]
  | size + 3, src => do
    let c1 ← bfSafeAtoi64 (src.getD 0 0)
    let c2 ← bfSafeAtoi64 (src.getD 1 0)
    let c3 ← bfSafeAtoi64 (src.getD 2 0)
    let c4 ← bfSafeAtoi64 (src.getD 3 0)
    let rest ← bfDecode size (src.drop 4)
    return [c1 <<< 2 ||| (c2 &&& 0x30) >>> 4, (c2 &&& 0x0F) <<< 4 ||| (c3 &&& 0x3C) >>> 2,
      (c3 &&& 0x03) <<< 6 ||| c4] ++ rest

/-- `BF_encode`; `src` is not empty. -/
def bfEncode : Bytes → Bytes
  | [] => []
  | [c1] => [bfItoa64 (c1 >>> 2), bfItoa64 ((c1 &&& 0x03) <<< 4)]
  | [c1, c2] =>
    [bfItoa64 (c1 >>> 2), bfItoa64 ((c1 &&& 0x03) <<< 4 ||| c2 >>> 4), bfItoa64 ((c2 &&& 0x0f) <<< 2)]
  | c1 :: c2 :: c3 :: rest =>
    [bfItoa64 (c1 >>> 2), bfItoa64 ((c1 &&& 0x03) <<< 4 ||| c2 >>> 4),
      bfItoa64 ((c2 &&& 0x0f) <<< 2 ||| c3 >>> 6), bfItoa64 (c3 &&& 0x3f)] ++ bfEncode rest

/-! ### The cipher -/

/-- `BF_ctx`, with the four boxes of `S` one after the other. -/
structure BfCtx where
  S : Vector UInt32 (4 * 256)
  P : BfKey

namespace BfCtx

/-- `S[box][index]`. -/
def box (ctx : BfCtx) (box : Fin 4) (index : UInt8) : UInt32 :=
  ctx.S.get ⟨256 * box.val + index.toNat, by have := index.toNat_lt; omega⟩

/-- `BF_ROUND`, the new `R`. -/
def round (ctx : BfCtx) (L R : UInt32) (N : Fin 16) : UInt32 :=
  let tmp1 := ctx.box 3 L.toUInt8
  let tmp2 := ctx.box 2 (L >>> 8).toUInt8
  let tmp3 := ctx.box 1 (L >>> 16).toUInt8 + ctx.box 0 (L >>> 24).toUInt8
  R ^^^ ctx.P.get N.succ.castSucc ^^^ ((tmp3 ^^^ tmp2) + tmp1)

/-- `BF_ENCRYPT`, two rounds at a time. -/
def encrypt (ctx : BfCtx) (block : UInt32 × UInt32) : UInt32 × UInt32 :=
  let rounds := (List.finRange 8).foldl (fun (L, R) k =>
    let R := ctx.round L R ⟨2 * k.val, by omega⟩
    (ctx.round R L ⟨2 * k.val + 1, by omega⟩, R)) (block.1 ^^^ ctx.P.get 0, block.2)
  (rounds.2 ^^^ ctx.P.get (Fin.last _), rounds.1)

/-- One block of a sweep: what is mixed into it, and where its encryption goes. -/
def replace (mix : UInt32 × UInt32) (put : BfCtx → UInt32 × UInt32 → BfCtx) (state : BfCtx × UInt32 × UInt32) :
    BfCtx × UInt32 × UInt32 :=
  let block := state.1.encrypt (state.2.1 ^^^ mix.1, state.2.2 ^^^ mix.2)
  (put state.1 block, block)

/-- Every word of `P` and then of `S` is replaced by the encryption of the block before it. -/
def sweep (mixP mixS : Nat → UInt32 × UInt32) (ctx : BfCtx) : BfCtx :=
  let state := (List.finRange 9).foldl (fun state i => replace (mixP i.val) (fun ctx block =>
    { ctx with
      P := (ctx.P.set (2 * i.val) block.1 (by omega)).set (2 * i.val + 1) block.2 (by omega) }) state) (ctx, 0, 0)
  ((List.finRange 512).foldl (fun state i => replace (mixS i.val) (fun ctx block =>
    { ctx with
      S := (ctx.S.set (2 * i.val) block.1 (by omega)).set (2 * i.val + 1) block.2 (by omega) }) state) state).1

/-- `BF_body`. -/
def body (ctx : BfCtx) : BfCtx := ctx.sweep (fun _ => (0, 0)) (fun _ => (0, 0))

end BfCtx

/-! ### The key -/

/-- The variables of the inner loop of `BF_set_key`: `tmp[0]`, `tmp[1]` and `sign`. -/
structure KeyWord where
  ptr : Bytes
  correct : UInt32
  bug : UInt32
  sign : UInt32

/-- One pass of the inner loop. -/
def KeyWord.pass (key : Bytes) (j : Nat) (w : KeyWord) : KeyWord :=
  let c := w.ptr.headD 0
  -- the word that the sign extension spoils
  let bug := w.bug <<< 8 ||| signExtend c
  { ptr := Looped.next key w.ptr
    correct := w.correct <<< 8 ||| c.toUInt32
    bug := bug
    sign := if j ≠ 0 then w.sign ||| bug &&& 0x80 else w.sign }

/-- The inner loop. -/
def keyWord (key ptr : Bytes) (sign : UInt32) : KeyWord :=
  (KeyWord.pass key 0 ⟨ptr, 0, 0, sign⟩ |> KeyWord.pass key 1 |> KeyWord.pass key 2 |> KeyWord.pass key 3)

/-- The variables of the outer loop. -/
structure SetKey where
  ptr : Bytes
  sign : UInt32
  diff : UInt32
  expanded : BfKey
  initial : BfKey

/-- One pass of the outer loop; `bug` picks the word. -/
def SetKey.pass (key : Bytes) (bug : Bool) (i : Nat) (s : SetKey) : SetKey :=
  let w := keyWord key s.ptr s.sign
  let word := if bug then w.bug else w.correct
  { ptr := w.ptr
    sign := w.sign
    diff := s.diff ||| (w.correct ^^^ w.bug)
    expanded := s.expanded.setIfInBounds i word
    initial := s.initial.setIfInBounds i (bfInitSubkeys[i]?.getD 0 ^^^ word) }

/-- The first passes of the outer loop. -/
def setKeyPasses (key : Bytes) (bug : Bool) : Nat → SetKey
  | 0 => ⟨key, 0, 0, .replicate _ 0, .replicate _ 0⟩
  | i + 1 => (setKeyPasses key bug i).pass key bug i

/-- The bit that is flipped in the end: the safety measure. -/
def setKeySign (safety sign diff : UInt32) : UInt32 :=
  let diff := diff ||| diff >>> 16
  let diff := (diff &&& 0xffff) + 0xffff
  sign <<< 9 &&& (~~~diff &&& safety)

/-- `BF_set_key`: the arrays `expanded` and `initial`. -/
def bfSetKey (key : Bytes) (flags : UInt8) : BfKey × BfKey :=
  let s := setKeyPasses key (flags &&& 1 ≠ 0) 18
  let safety : UInt32 := (flags.toUInt32 &&& 2) <<< 15
  (s.expanded, s.initial.set 0 (s.initial.get 0 ^^^ setKeySign safety s.sign s.diff))

/-! ### Hashes -/

/-- Word `i` of a buffer, its first byte on top (`BF_swap`). -/
def bfSwap (buffer : Bytes) (i : Nat) : UInt32 := UInt32.ofNat (ofBigEndian ((buffer.drop (4 * i)).take 4))

/-- One pass of the main loop: the key and the salt in turn. -/
def bfPass (expanded : BfKey) (salt : Nat → UInt32) (ctx : BfCtx) : BfCtx :=
  let keyed : BfCtx := BfCtx.body { ctx with P := .ofFn fun i => ctx.P.get i ^^^ expanded.get i }
  BfCtx.body { keyed with P := .ofFn fun i => keyed.P.get i ^^^ salt (i.val % 4) }

/-- `BF_magic_w`. -/
def bfMagicW : List (UInt32 × UInt32) :=
  [(0x4F727068, 0x65616E42), (0x65686F6C, 0x64657253), (0x63727944, 0x6F756274)]

/-- The 23 bytes that `BF_crypt` computes for a password. -/
def bfDigest (flags : UInt8) (cost : Nat) (saltBytes key : Bytes) : Bytes :=
  let (expanded, initial) := bfSetKey key flags
  let salt := bfSwap saltBytes
  let first := (salt 0, salt 1)
  let second := (salt 2, salt 3)
  let ctx : BfCtx := ⟨.ofFn fun i => bfInitBoxes.getD i.val 0, initial⟩
  let ctx := ctx.sweep (fun i => if i % 2 = 0 then first else second) (fun i => if i % 2 = 0 then second else first)
  let ctx := (bfPass expanded salt)^[2 ^ cost] ctx
  let output := bfMagicW.flatMap fun block =>
    let block := ctx.encrypt^[64] block
    bigEndian 4 block.1.toNat ++ bigEndian 4 block.2.toNat
  output.take 23

/-- `flags_by_subtype`, from `a` on. -/
def flagsBySubtype (subtype : UInt8) : UInt8 :=
  List.getD [2, 4, 0, 0, 0, 0, 0, 0, 0, 0, 0, 0, 0, 0, 0, 0, 0, 0, 0, 0, 0, 0, 0, 1, 4, 0] (subtype - 97).toNat 0

/-- The check of `BF_crypt`: `$2`, the subtype, `$`, two digits up to `31`, and `$`. -/
def bfSettingValid (setting : Bytes) : Bool :=
  let c (i : Nat) : UInt8 := setting.getD i 0
  c 0 = 36 ∧ c 1 = 50 ∧ 97 ≤ c 2 ∧ c 2 ≤ 122 ∧ flagsBySubtype (c 2) ≠ 0 ∧ c 3 = 36 ∧ 48 ≤ c 4 ∧ c 4 ≤ 51 ∧
    48 ≤ c 5 ∧ c 5 ≤ 57 ∧ ¬ (c 4 = 51 ∧ 49 < c 5) ∧ c 6 = 36

/-- The logarithm of `count`. -/
def bfCost (setting : Bytes) : Nat := ((setting.getD 4 0).toNat - 48) * 10 + ((setting.getD 5 0).toNat - 48)

/-- `BF_crypt`: what it leaves in `output`. -/
def bfCrypt (key setting : Bytes) (size : Int) (min : Nat) : Option Bytes :=
  if size < 7 + 22 + 31 + 1 then none
  else if bfSettingValid setting = false then none
  else if 2 ^ bfCost setting < min then none
  else
    match bfDecode 16 (setting.drop 7) with
    | none => none
    | some salt =>
      let digest := bfDigest (flagsBySubtype (setting.getD 2 0)) (bfCost setting) salt key
      -- only the two bits of the last character that belong to the salt are kept
      let last := bfItoa64 (bfAtoi64 (setting.getD 28 0 - 0x20) &&& 0x30)
      some (setting.take 28 ++ [last] ++ bfEncode digest)

/-- The self-test of `_crypt_blowfish_rn`, with the subtype of the setting. -/
def bfSelfTest (subtype : UInt8) : Bool :=
  let testKey := ascii "8b " ++ [0xd0, 0xc1, 0xd2, 0xcf, 0xcc, 0xd8]
  let testSetting := ascii "$2" ++ [subtype] ++ ascii "$00$abcdefghijklmnopqrstuu"
  let testHash := if flagsBySubtype subtype &&& 1 ≠ 0 then ascii "VUrPmXD6q/nVSSp7pNDhCR9071IfIRe"
    else ascii "i1D709vfamulimlGcq0qq3UvuUasvEa"
  let k := [0xff, 0xa3] ++ ascii "34" ++ [0xff, 0xff, 0xff, 0xa3] ++ ascii "345"
  let a := bfSetKey k 2
  let y := bfSetKey k 4
  let undone := a.2.get 0 ^^^ 0x10000
  bfCrypt testKey testSetting 61 1 = some (testSetting ++ testHash) ∧ undone = 0xdb9c59bc ∧
    y.1.get (Fin.last _) = 0x33343500 ∧ a.1 = y.1 ∧ a.2.set 0 undone = y.2

/-- `_crypt_blowfish_rn`: what it leaves in `output` when it does not return `NULL`. -/
def cryptBlowfishRn (key setting : Bytes) (size : Int) : Option Bytes :=
  match bfCrypt key setting size 16 with
  | none => none
  | some output => if bfSelfTest (setting.getD 2 0) then some output else none

/-- `_crypt_gensalt_blowfish_rn`, with `prefix` after its first character. -/
def cryptGensaltBlowfishRn (subtype : UInt8) (count : Nat) (input : Bytes) (outputSize : Int) : Option Bytes :=
  if input.length < 16 ∨ outputSize < 7 + 22 + 1 ∨ (count ≠ 0 ∧ (count < 4 ∨ count > 31)) ∨
      (subtype ≠ 97 ∧ subtype ≠ 98 ∧ subtype ≠ 121) then none
  else
    let count := if count = 0 then 5 else count
    some (ascii "$2" ++ [subtype] ++ ascii "$" ++ [48 + UInt8.ofNat (count / 10), 48 + UInt8.ofNat (count % 10)] ++
      ascii "$" ++ bfEncode (input.take 16))

end OttQuic.Auth
