import OttQuic.Auth.Digits
import OttQuic.Auth.SelfTest

/-!
# Passwords (`bcrypt.c`, `hash.c`)

A password is checked by hashing it again, with the stored hash as the setting, and comparing the two hashes. This works
because a hash begins with its own setting: `BfSetting` is what `BF_crypt` reads of one, and `BfSetting.hash` what it
writes. `verifyPassword_iff` says exactly which stored texts a password opens.
-/

namespace OttQuic.Auth

open CString BigEndian

/-- The size of the buffers of `bcrypt.c`. -/
abbrev bcryptHashSize : Int := 64

/-- `HASH_HEX_SIZE`. -/
abbrev hashHexSize : Nat := 61

/-- `/dev/urandom`, as `bcrypt_gensalt` meets it. -/
structure Urandom where
  opens : Bool
  /-- The bytes `try_read` reads, when it returns `0`. -/
  read : Option (Vector UInt8 16)
  closes : Bool

/-- `timing_safe_strcmp`. -/
def timingSafeStrcmp (str1 str2 : Bytes) : UInt8 :=
  if str1.length ≠ str2.length then 1
  else (str1.zip str2).foldl (fun ret (u1, u2) => ret ||| (u1 ^^^ u2)) 0

/-- `bcrypt_gensalt`: the salt, or the code it returns. -/
def bcryptGensalt (factor : Int) (urandom : Urandom) : Except Nat Bytes :=
  if urandom.opens = false then .error 1
  else
    match urandom.read with
    | none => .error (if urandom.closes then 2 else 4)
    | some input =>
      if urandom.closes = false then .error 3
      else
        let workf := if factor < 4 ∨ factor > 31 then 12 else factor
        match cryptGensaltBlowfishRn 97 workf.toNat input.toList bcryptHashSize with
        | none => .error 5
        | some salt => .ok salt

/-- `bcrypt_hashpw`. -/
def bcryptHashpw (passwd salt : Bytes) : Option Bytes := cryptBlowfishRn passwd salt bcryptHashSize

/-- `bcrypt_checkpw`. -/
def bcryptCheckpw (passwd hash : Bytes) : Int :=
  match bcryptHashpw passwd hash with
  | none => -1
  | some outhash => (timingSafeStrcmp hash outhash).toNat

/-- `hash_password`: what it leaves in `out_hex`, when it does not return before. -/
def hashPassword (urandom : Urandom) (password : Bytes) (outSize : Nat) : Option Bytes :=
  if outSize < hashHexSize then none
  else
    match bcryptGensalt 12 urandom with
    | .error _ => none
    | .ok salt =>
      match bcryptHashpw password salt with
      | none => none
      | some hash => some (hash.take (outSize - 1))

/-- `verify_password` returns `0`. -/
def verifyPassword (password hashHex : Bytes) : Bool := bcryptCheckpw password hashHex = 0

/-! ### Settings -/

/-- What `BF_crypt` reads of a setting. -/
structure BfSetting where
  subtype : UInt8
  cost : Fin 32
  salt : Vector UInt8 16
  known : flagsBySubtype subtype ≠ 0
  deriving DecidableEq

namespace BfSetting

def costText (cost : Nat) : Bytes := [48 + UInt8.ofNat (cost / 10), 48 + UInt8.ofNat (cost % 10)]

def text (s : BfSetting) : Bytes :=
  ascii "$2" ++ [s.subtype] ++ ascii "$" ++ costText s.cost ++ ascii "$" ++ bfEncode s.salt.toList

def digest (s : BfSetting) (key : Bytes) : Bytes := bfDigest (flagsBySubtype s.subtype) s.cost s.salt.toList key

/-- A hash is its setting, and the digest behind it. -/
def hash (s : BfSetting) (key : Bytes) : Bytes := s.text ++ bfEncode (s.digest key)

end BfSetting

variable {s s' : BfSetting} {key p q setting stored : Bytes} {size : Int} {min : Nat} {urandom : Urandom}

theorem length_bfDigest (flags : UInt8) (cost : Nat) (saltBytes key : Bytes) :
    (bfDigest flags cost saltBytes key).length = 23 := by
  simp [bfDigest, bfMagicW]

namespace BfSetting

theorem length_text (s : BfSetting) : s.text.length = 29 := by
  have hsalt := length_bfEncode s.salt.toList
  rw [Vector.length_toList] at hsalt
  simp [text, costText, ascii, hsalt]

theorem length_digest (s : BfSetting) (key : Bytes) : (s.digest key).length = 23 := length_bfDigest ..

theorem length_hash (s : BfSetting) (key : Bytes) : (s.hash key).length = 60 := by
  rw [hash, List.length_append, length_text, length_bfEncode, length_digest]

theorem text_eq (s : BfSetting) : s.text = [36, 50, s.subtype, 36, 48 + UInt8.ofNat (s.cost.val / 10),
    48 + UInt8.ofNat (s.cost.val % 10), 36] ++ bfEncode s.salt.toList := rfl

/-- The setting stands at the beginning of the text. -/
structure Of (s : BfSetting) (setting : Bytes) : Prop where
  valid : bfSettingValid setting = true
  subtype : setting.getD 2 0 = s.subtype
  cost : bfCost setting = s.cost
  salt : bfDecode 16 (setting.drop 7) = some s.salt.toList

theorem Of.unique (h : s.Of setting) (h' : s'.Of setting) : s = s' := by
  have hsalt := Option.some.inj (h.salt.symm.trans h'.salt)
  cases s with | mk subtype cost salt known =>
  cases s' with | mk subtype' cost' salt' known' =>
  obtain rfl : subtype = subtype' := h.subtype.symm.trans h'.subtype
  obtain rfl : cost = cost' := Fin.ext (h.cost.symm.trans h'.cost)
  obtain rfl : salt = salt' := Vector.toList_inj.mp hsalt
  rfl

theorem costText_digits (cost : Fin 32) :
    let c4 := 48 + UInt8.ofNat (cost.val / 10)
    let c5 := 48 + UInt8.ofNat (cost.val % 10)
    48 ≤ c4 ∧ c4 ≤ 51 ∧ 48 ≤ c5 ∧ c5 ≤ 57 ∧ ¬ (c4 = 51 ∧ 49 < c5) ∧
      (c4.toNat - 48) * 10 + (c5.toNat - 48) = cost.val := by
  revert cost
  decide

theorem of_text (s : BfSetting) (rest : Bytes) : s.Of (s.text ++ rest) where
  valid := by
    have hcost := costText_digits s.cost
    rcases flagsBySubtype_known s.known with h | h | h | h <;>
      simp [bfSettingValid, text_eq, h, hcost, flagsBySubtype]
  subtype := rfl
  cost := (costText_digits s.cost).2.2.2.2.2
  salt := by
    have hread := bfDecode_bfEncode s.salt.toList rest
    rwa [Vector.length_toList] at hread

theorem exists_of {salt : Bytes} (hvalid : bfSettingValid setting = true)
    (hsalt : bfDecode 16 (setting.drop 7) = some salt) : ∃ s : BfSetting, s.Of setting ∧ s.salt.toList = salt := by
  have hlength := (bfEncode_of_bfDecode (by decide) hsalt).1
  have hfields := hvalid
  simp only [bfSettingValid, decide_eq_true_eq] at hfields
  obtain ⟨-, -, -, -, hknown, -, hc4, hc4', hc5, hc5', hmax, -⟩ := hfields
  rw [UInt8.le_iff_toNat_le] at hc4 hc4' hc5 hc5'
  have hcost : bfCost setting < 32 := by
    have hmax' : ¬ ((setting.getD 4 0).toNat = 51 ∧ 49 < (setting.getD 5 0).toNat) := fun ⟨htop, hlast⟩ =>
      hmax ⟨UInt8.toNat_inj.mp htop, UInt8.lt_iff_toNat_lt.mpr hlast⟩
    simp only [UInt8.reduceToNat] at hc4 hc4' hc5 hc5'
    unfold bfCost
    omega
  refine ⟨⟨setting.getD 2 0, ⟨bfCost setting, hcost⟩, ⟨salt.toArray, by simpa using hlength⟩, hknown⟩,
    ⟨hvalid, rfl, rfl, ?_⟩, ?_⟩
  · simpa using hsalt
  · simp

/-- What is written for a setting: the setting, but for the bits of its last digit that do not belong to the salt. -/
theorem text_of (h : s.Of setting) :
    setting.take 28 ++ [bfItoa64 (bfAtoi64 (setting.getD 28 0 - 0x20) &&& 0x30)] = s.text := by
  obtain ⟨-, hlength, hencode⟩ := bfEncode_of_bfDecode (by decide) h.salt
  have hfields := h.valid
  simp only [bfSettingValid, decide_eq_true_eq] at hfields
  obtain ⟨h0, h1, -, -, -, h3, hc4, hc4', hc5, hc5', hmax, h6⟩ := hfields
  have hsubtype := h.subtype
  have hcost := h.cost
  rw [UInt8.le_iff_toNat_le] at hc4 hc4' hc5 hc5'
  simp only [UInt8.reduceToNat] at hc4 hc4' hc5 hc5'
  unfold bfCost at hcost
  have h4 : setting.getD 4 0 = 48 + UInt8.ofNat (s.cost.val / 10) := by
    apply UInt8.toNat_inj.mp
    simp only [UInt8.toNat_add, UInt8.toNat_ofNat', UInt8.reduceToNat]
    omega
  have h5 : setting.getD 5 0 = 48 + UInt8.ofNat (s.cost.val % 10) := by
    apply UInt8.toNat_inj.mp
    simp only [UInt8.toNat_add, UInt8.toNat_ofNat', UInt8.reduceToNat]
    omega
  rw [text_eq, hencode, ← h4, ← h5, ← hsubtype]
  match setting, hlength with
  | c0 :: c1 :: c2 :: c3 :: c4 :: c5 :: c6 :: rest, _ =>
    obtain rfl : c0 = 36 := h0
    obtain rfl : c1 = 50 := h1
    obtain rfl : c3 = 36 := h3
    obtain rfl : c6 = 36 := h6
    rfl

theorem text_inj (h : s.text = s'.text) : s = s' := by
  have hof := of_text s []
  rw [h] at hof
  exact hof.unique (of_text s' [])

theorem hash_inj : s.hash p = s'.hash q ↔ s = s' ∧ s.digest p = s.digest q := by
  constructor
  · intro h
    obtain ⟨htext, hdigest⟩ := List.append_inj h ((length_text s).trans (length_text s').symm)
    obtain rfl := text_inj htext
    exact ⟨rfl, bfEncode_inj ((length_digest s p).trans (length_digest s q).symm) hdigest⟩
  · rintro ⟨rfl, hdigest⟩
    rw [hash, hash, hdigest]

end BfSetting

theorem bfCrypt_of (h : s.Of setting) : bfCrypt key setting size min =
    if size < 61 ∨ 2 ^ s.cost.val < min then none else some (s.hash key) := by
  have hlast := BfSetting.text_of h
  have hneeded : (7 + 22 + 31 + 1 : Int) = 61 := rfl
  rw [bfCrypt, hneeded, if_neg (by simp [h.valid] : ¬ bfSettingValid setting = false), h.cost, h.salt]
  by_cases hsize : size < 61
  · rw [if_pos hsize, if_pos (.inl hsize)]
  · by_cases hmin : 2 ^ s.cost.val < min
    · rw [if_neg hsize, if_pos hmin, if_pos (.inr hmin)]
    · rw [if_neg hsize, if_neg hmin, if_neg (not_or.mpr ⟨hsize, hmin⟩)]
      simp only
      rw [hlast, h.subtype]
      rfl

/-- **What `BF_crypt` writes.** -/
theorem bfCrypt_eq_some {out : Bytes} : bfCrypt key setting size min = some out ↔
    61 ≤ size ∧ ∃ s : BfSetting, s.Of setting ∧ min ≤ 2 ^ s.cost.val ∧ out = s.hash key := by
  constructor
  · intro h
    have hvalid : bfSettingValid setting = true := by
      unfold bfCrypt at h
      split_ifs at h with hsize hinvalid
      simpa using hinvalid
    obtain ⟨salt, hsalt⟩ : ∃ salt, bfDecode 16 (setting.drop 7) = some salt := by
      cases hsalt : bfDecode 16 (setting.drop 7) with
      | none =>
          rw [bfCrypt, hsalt] at h
          split_ifs at h
      | some salt => exact ⟨salt, rfl⟩
    obtain ⟨s, hs, -⟩ := BfSetting.exists_of hvalid hsalt
    rw [bfCrypt_of hs] at h
    split_ifs at h with hcond
    obtain ⟨hsize, hmin⟩ := not_or.mp hcond
    exact ⟨Int.not_lt.mp hsize, s, hs, Nat.not_lt.mp hmin, (Option.some.inj h).symm⟩
  · rintro ⟨hsize, s, hs, hmin, rfl⟩
    rw [bfCrypt_of hs, if_neg (not_or.mpr ⟨Int.not_lt.mpr hsize, Nat.not_lt.mpr hmin⟩)]

/-! ### Comparing -/

theorem timingSafeStrcmp_eq_zero : timingSafeStrcmp p q = 0 ↔ p = q := by
  have hfold (pairs : List (UInt8 × UInt8)) (ret : UInt8) :
      pairs.foldl (fun ret (u1, u2) => ret ||| (u1 ^^^ u2)) ret = 0 ↔ ret = 0 ∧ ∀ pair ∈ pairs, pair.1 = pair.2 := by
    induction pairs generalizing ret with
    | nil => simp
    | cons pair pairs ih =>
        rw [List.foldl_cons, ih, UInt8.or_eq_zero_iff, UInt8.xor_eq_zero_iff, List.forall_mem_cons, and_assoc]
  unfold timingSafeStrcmp
  split_ifs with hlength
  · exact iff_of_false (by decide) fun h => hlength (congrArg List.length h)
  · rw [not_not] at hlength
    rw [hfold]
    constructor
    · rintro ⟨-, hpairs⟩
      apply List.ext_getElem hlength
      intro i hi hi'
      exact hpairs (p[i], q[i]) (List.mem_iff_getElem.mpr ⟨i, by simpa using ⟨hi, hi'⟩, List.getElem_zip⟩)
    · rintro rfl
      refine ⟨rfl, fun pair hpair => ?_⟩
      obtain ⟨i, hi, rfl⟩ := List.getElem_of_mem hpair
      rw [List.getElem_zip]

/-! ### Hashing -/

theorem bcryptHashpw_eq_some {out : Bytes} : bcryptHashpw key setting = some out ↔
    ∃ s : BfSetting, s.Of setting ∧ 4 ≤ s.cost.val ∧ bfSelfTest s.subtype = true ∧ out = s.hash key := by
  have hcost (cost : Fin 32) : 16 ≤ 2 ^ cost.val ↔ 4 ≤ cost.val := by
    rw [show 16 = 2 ^ 4 from rfl, Nat.pow_le_pow_iff_right (by decide)]
  unfold bcryptHashpw cryptBlowfishRn
  constructor
  · intro h
    split at h
    · cases h
    · rename_i output hcrypt
      obtain ⟨-, s, hs, hmin, rfl⟩ := bfCrypt_eq_some.mp hcrypt
      split_ifs at h with htest
      rw [hs.subtype] at htest
      exact ⟨s, hs, (hcost s.cost).mp hmin, htest, (Option.some.inj h).symm⟩
  · rintro ⟨s, hs, hmin, htest, rfl⟩
    rw [bfCrypt_eq_some.mpr ⟨by decide, s, hs, (hcost s.cost).mpr hmin, rfl⟩]
    simp only
    rw [hs.subtype, if_pos htest]

theorem bcryptCheckpw_eq_zero : bcryptCheckpw p stored = 0 ↔
    ∃ s : BfSetting, 4 ≤ s.cost.val ∧ bfSelfTest s.subtype = true ∧ stored = s.hash p := by
  have hzero (code : UInt8) : (code.toNat : Int) = 0 ↔ code = 0 := by
    rw [Int.natCast_eq_zero, ← UInt8.toNat_zero, UInt8.toNat_inj]
  unfold bcryptCheckpw
  constructor
  · intro h
    split at h
    · cases h
    · rename_i outhash hhash
      obtain ⟨s, -, hmin, htest, rfl⟩ := bcryptHashpw_eq_some.mp hhash
      exact ⟨s, hmin, htest, timingSafeStrcmp_eq_zero.mp ((hzero _).mp h)⟩
  · rintro ⟨s, hmin, htest, rfl⟩
    have hself : bcryptHashpw p (s.hash p) = some (s.hash p) :=
      bcryptHashpw_eq_some.mpr ⟨s, BfSetting.of_text s _, hmin, htest, rfl⟩
    rw [hself]
    exact (hzero _).mpr (timingSafeStrcmp_eq_zero.mpr rfl)

/-- **What a password opens.** A stored text is accepted exactly when it is a hash of the password, whole and in the form
in which it is written, with at least `2 ^ 4` passes; no other text is, whatever it is. -/
theorem verifyPassword_iff : verifyPassword p stored = true ↔
    ∃ s : BfSetting, 4 ≤ s.cost.val ∧ bfSelfTest s.subtype = true ∧ stored = s.hash p := by
  rw [verifyPassword, decide_eq_true_eq]
  exact bcryptCheckpw_eq_zero

theorem verifyPassword_hash : verifyPassword q (s.hash p) = true ↔
    4 ≤ s.cost.val ∧ bfSelfTest s.subtype = true ∧ s.digest p = s.digest q := by
  rw [verifyPassword, decide_eq_true_eq, bcryptCheckpw_eq_zero]
  constructor
  · rintro ⟨s', hmin, htest, hhash⟩
    obtain ⟨rfl, hdigest⟩ := BfSetting.hash_inj.mp hhash
    exact ⟨hmin, htest, hdigest⟩
  · rintro ⟨hmin, htest, hdigest⟩
    exact ⟨s, hmin, htest, BfSetting.hash_inj.mpr ⟨rfl, hdigest⟩⟩

theorem digest_congr (hflags : flagsBySubtype s.subtype &&& 1 = 0) (hp : 0 ∉ p) (hq : 0 ∉ q)
    (htake : p.take 72 = q.take 72) : s.digest p = s.digest q := by
  unfold BfSetting.digest bfDigest
  rw [bfSetKey_congr hflags hp hq htake]

/-! ### New passwords -/

/-- The setting of a new password. -/
def BfSetting.ofSalt (salt : Vector UInt8 16) : BfSetting := ⟨97, 12, salt, by decide⟩

theorem four_le_ofSalt (salt : Vector UInt8 16) : 4 ≤ (BfSetting.ofSalt salt).cost.val := by
  show 4 ≤ 12
  decide

theorem bcryptGensalt_eq_ok {salt : Bytes} : bcryptGensalt 12 urandom = .ok salt ↔
    urandom.opens = true ∧ urandom.closes = true ∧ ∃ input, urandom.read = some input ∧
      salt = (BfSetting.ofSalt input).text := by
  have hgensalt (input : Vector UInt8 16) : cryptGensaltBlowfishRn 97 12 input.toList bcryptHashSize =
      some (BfSetting.ofSalt input).text := by
    have hlength : input.toList.length = 16 := Vector.length_toList
    rw [cryptGensaltBlowfishRn, if_neg (by rw [hlength]; decide), List.take_of_length_le (by omega)]
    rfl
  have hworkf : (if (12 : Int) < 4 ∨ (12 : Int) > 31 then (12 : Int) else 12).toNat = 12 := rfl
  unfold bcryptGensalt
  cases urandom.opens with
  | false => simp
  | true =>
      cases urandom.read with
      | none => simp
      | some input =>
          cases urandom.closes with
          | false => simp
          | true =>
              simp only [hworkf, hgensalt]
              simp [eq_comm]

theorem hashPassword_eq_some {size : Nat} : hashPassword urandom p size = some stored ↔
    61 ≤ size ∧ urandom.opens = true ∧ urandom.closes = true ∧ bfSelfTest 97 = true ∧
      ∃ salt, urandom.read = some salt ∧ stored = (BfSetting.ofSalt salt).hash p := by
  have htake (s : BfSetting) (hsize : 61 ≤ size) : (s.hash p).take (size - 1) = s.hash p :=
    List.take_of_length_le (by rw [BfSetting.length_hash]; omega)
  unfold hashPassword
  constructor
  · intro h
    split_ifs at h with hsize
    split at h
    · cases h
    · rename_i salt hgensalt
      obtain ⟨hopens, hcloses, input, hread, rfl⟩ := bcryptGensalt_eq_ok.mp hgensalt
      split at h
      · cases h
      · rename_i hash hhashpw
        obtain ⟨s, hs, -, htest, rfl⟩ := bcryptHashpw_eq_some.mp hhashpw
        have hof := BfSetting.of_text (BfSetting.ofSalt input) []
        rw [List.append_nil] at hof
        obtain rfl := hs.unique hof
        rw [htake _ (Nat.not_lt.mp hsize)] at h
        exact ⟨Nat.not_lt.mp hsize, hopens, hcloses, htest, input, hread, (Option.some.inj h).symm⟩
  · rintro ⟨hsize, hopens, hcloses, htest, salt, hread, rfl⟩
    have hof := BfSetting.of_text (BfSetting.ofSalt salt) []
    rw [List.append_nil] at hof
    have hhashpw : bcryptHashpw p (BfSetting.ofSalt salt).text = some ((BfSetting.ofSalt salt).hash p) :=
      bcryptHashpw_eq_some.mpr ⟨_, hof, four_le_ofSalt salt, htest, rfl⟩
    rw [if_neg (Nat.not_lt.mpr hsize), bcryptGensalt_eq_ok.mpr ⟨hopens, hcloses, salt, hread, rfl⟩]
    simp only
    rw [hhashpw]
    simp only
    rw [htake _ hsize]

theorem isSome_hashPassword {size : Nat} : (hashPassword urandom p size).isSome = true ↔
    61 ≤ size ∧ urandom.opens = true ∧ urandom.closes = true ∧ bfSelfTest 97 = true ∧
      urandom.read.isSome = true := by
  simp only [Option.isSome_iff_exists, hashPassword_eq_some]
  constructor
  · rintro ⟨_, hsize, hopens, hcloses, htest, salt, hread, -⟩
    exact ⟨hsize, hopens, hcloses, htest, salt, hread⟩
  · rintro ⟨hsize, hopens, hcloses, htest, salt, hread⟩
    exact ⟨_, hsize, hopens, hcloses, htest, salt, hread, rfl⟩

/-- **A new hash** is there when the system has random bytes, there is room for it and the algorithm passes its test. It
opens for its password, and for every other one with the same first 72 characters. -/
theorem hashPassword_verify {size : Nat} (hp : 0 ∉ p) (hq : 0 ∉ q) (htake : p.take 72 = q.take 72) :
    ((hashPassword urandom p size).isSome = true ↔ 61 ≤ size ∧ urandom.opens = true ∧ urandom.closes = true ∧
        bfSelfTest 97 = true ∧ urandom.read.isSome = true) ∧
      (hashPassword urandom p size).all (verifyPassword q) = true := by
  refine ⟨isSome_hashPassword, ?_⟩
  cases hhash : hashPassword urandom p size with
  | none => rfl
  | some stored =>
      obtain ⟨-, -, -, htest, salt, -, rfl⟩ := hashPassword_eq_some.mp hhash
      have hcorrect : flagsBySubtype (BfSetting.ofSalt salt).subtype &&& 1 = 0 := by
        show flagsBySubtype 97 &&& 1 = 0
        decide
      exact verifyPassword_hash.mpr ⟨four_le_ofSalt salt, htest, digest_congr hcorrect hp hq htake⟩

/-- A password of 80 characters has a hash, and its first 72 open it. -/
theorem hashPassword_verify_long :
    let stored := hashPassword ⟨true, some (.replicate 16 0), true⟩ (List.replicate 80 97) hashHexSize
    stored.isSome = true ∧ stored.all (verifyPassword (List.replicate 72 97)) = true := by
  intro stored
  obtain ⟨hsome, hall⟩ : (stored.isSome = true ↔ _) ∧ stored.all (verifyPassword (List.replicate 72 97)) = true :=
    hashPassword_verify (by decide) (by decide) (by decide)
  have htest : bfSelfTest 97 = true := bfSelfTest_known (by decide)
  exact ⟨hsome.mpr ⟨by decide, rfl, rfl, htest, rfl⟩, hall⟩

end OttQuic.Auth
