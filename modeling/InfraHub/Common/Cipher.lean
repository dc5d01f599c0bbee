import InfraHub.Auth.Password
import Mathlib.Logic.Equiv.Basic

/-!
# Common — Cipher

`AESCipher` and `AESCipherV2`: a text is padded to whole blocks, encrypted and written in base64, with
what decryption needs in front of it: the `iv`, or the salt from which `_make_key` makes key and `iv`.

* `b64decode_b64encode`: `base64.b64decode` undoes `base64.b64encode`.
* `unpack_pack`: `_unpack_data` undoes `_pack_data`, and decodes.
* `length_make_key`: there is as much key as was asked for.
* `AESCipherV2.decrypt_str`: `Auth.Password.decrypt` is the decryption of this module.
* `ciphers_invert`: both ciphers give a text back, if it has an encoding.

A method that raises is `none`.
-/

namespace InfraHub.Common.Cipher
open InfraHub.Lib (Bytes Str str toNat_ofNat map_ofNat_str encode encode_cons decode
  decode_eq_some)
open InfraHub.Auth.Password (Primitives b64_value a2b_base64 make_key extend_key unpack_data salted)

/-! ### Texts and bytes -/

/-- `s.encode("utf-8")`: there is no code for a surrogate. -/
def utf8 (s : Str) : Option Bytes :=
  if s.all fun c => Nat.isValidChar c then some (encode (s.map Char.ofNat)) else none

inductive Data
  | str (s : Str)
  | bytes (b : Bytes)

/-- `s.encode("utf-8") if isinstance(s, str) else s` -/
def Data.to_bytes : Data → Option Bytes
  | .str s => utf8 s
  | .bytes b => some b

/-- What is decoded is the text. -/
theorem str_of_decode {s : Str} {b : Bytes} (h : utf8 s = some b) :
    ((decode b).map String.ofList).map str = some s := by
  obtain ⟨hvalid, hb⟩ := Option.ite_none_right_eq_some.mp h
  rw [decode_eq_some.mpr (Option.some.inj hb), Option.map_some, Option.map_some, str,
    String.toList_ofList, List.map_map]
  refine congrArg some ((List.map_congr_left fun c hc => ?_).trans (List.map_id s))
  exact toNat_ofNat (of_decide_eq_true (List.all_eq_true.mp hvalid c hc))

/-! ### Base64 -/

def b64_alphabet : List Char :=
  "ABCDEFGHIJKLMNOPQRSTUVWXYZabcdefghijklmnopqrstuvwxyz0123456789+/".toList

def b64_char (v : Nat) : Char := b64_alphabet.getD v '='

/-- `binascii.b2a_base64` -/
def b2a_base64 : Bytes → List Char
  | [] => []
  | [a] => [b64_char (a.toNat / 4), b64_char (a.toNat % 4 * 16), '=', '=']
  | [a, b] => [b64_char (a.toNat / 4), b64_char (a.toNat % 4 * 16 + b.toNat / 16),
      b64_char (b.toNat % 16 * 4), '=']
  | a :: b :: c :: data =>
    b64_char (a.toNat / 4) :: b64_char (a.toNat % 4 * 16 + b.toNat / 16) ::
      b64_char (b.toNat % 16 * 4 + c.toNat / 64) :: b64_char (c.toNat % 64) :: b2a_base64 data

def b64encode (s : Bytes) : Bytes := (b2a_base64 s).map fun c => UInt8.ofNat c.toNat

/-- A text has to be ASCII; other bytes are skipped. -/
def b64decode : Data → Option Bytes
  | .str s => if s.all (· < 128) then a2b_base64 0 0 0 (s.map Char.ofNat) else none
  | .bytes b => a2b_base64 0 0 0 (b.map fun x => Char.ofNat x.toNat)

theorem b64_char_spec {v : Nat} (h : v < 64) : b64_value (b64_char v) = some v ∧ b64_char v ≠ '=' ∧
    (b64_char v).toNat < 128 := by
  have hall : ∀ v < 64, b64_value (b64_char v) = some v ∧ b64_char v ≠ '=' ∧
      (b64_char v).toNat < 128 := by
    decide +kernel
  exact hall v h

section
variable {v l p : Nat} {cs : List Char}

theorem a2b_first (h : v < 64) : a2b_base64 0 l p (b64_char v :: cs) = a2b_base64 1 v 0 cs := by
  obtain ⟨hvalue, hne, -⟩ := b64_char_spec h
  rw [a2b_base64, if_neg hne, hvalue]
  rfl

theorem a2b_second (h : v < 64) : a2b_base64 1 l p (b64_char v :: cs) =
    (a2b_base64 2 (v % 16) 0 cs).map (UInt8.ofNat (l * 4 + v / 16) :: ·) := by
  obtain ⟨hvalue, hne, -⟩ := b64_char_spec h
  rw [a2b_base64, if_neg hne, hvalue]
  rfl

theorem a2b_third (h : v < 64) : a2b_base64 2 l p (b64_char v :: cs) =
    (a2b_base64 3 (v % 4) 0 cs).map (UInt8.ofNat (l * 16 + v / 4) :: ·) := by
  obtain ⟨hvalue, hne, -⟩ := b64_char_spec h
  rw [a2b_base64, if_neg hne, hvalue]
  rfl

theorem a2b_fourth (h : v < 64) : a2b_base64 3 l p (b64_char v :: cs) =
    (a2b_base64 0 0 0 cs).map (UInt8.ofNat (l * 64 + v) :: ·) := by
  obtain ⟨hvalue, hne, -⟩ := b64_char_spec h
  rw [a2b_base64, if_neg hne, hvalue]
  rfl

end

theorem a2b_b2a (s : Bytes) : a2b_base64 0 0 0 (b2a_base64 s) = some s := by
  induction s using b2a_base64.induct with
  | case1 => rfl
  | case2 a =>
      have ha := a.toNat_lt
      have hbyte : a.toNat / 4 * 4 + a.toNat % 4 * 16 / 16 = a.toNat := by omega
      rw [b2a_base64, a2b_first (by omega), a2b_second (by omega), hbyte, UInt8.ofNat_toNat]
      rfl
  | case3 a b =>
      have ha := a.toNat_lt
      have hb := b.toNat_lt
      have hfirst : a.toNat / 4 * 4 + (a.toNat % 4 * 16 + b.toNat / 16) / 16 = a.toNat := by omega
      have hleft : (a.toNat % 4 * 16 + b.toNat / 16) % 16 = b.toNat / 16 := by omega
      have hsecond : b.toNat / 16 * 16 + b.toNat % 16 * 4 / 4 = b.toNat := by omega
      rw [b2a_base64, a2b_first (by omega), a2b_second (by omega), hfirst, hleft,
        a2b_third (by omega), hsecond, UInt8.ofNat_toNat, UInt8.ofNat_toNat]
      rfl
  | case4 a b c data ih =>
      -- the bits of three bytes, cut into four characters and put together again
      have ha := a.toNat_lt
      have hb := b.toNat_lt
      have hc := c.toNat_lt
      have hfirst : a.toNat / 4 * 4 + (a.toNat % 4 * 16 + b.toNat / 16) / 16 = a.toNat := by omega
      have hleft : (a.toNat % 4 * 16 + b.toNat / 16) % 16 = b.toNat / 16 := by omega
      have hsecond : b.toNat / 16 * 16 + (b.toNat % 16 * 4 + c.toNat / 64) / 4 = b.toNat := by omega
      have hleft' : (b.toNat % 16 * 4 + c.toNat / 64) % 4 = c.toNat / 64 := by omega
      have hthird : c.toNat / 64 * 64 + c.toNat % 64 = c.toNat := by omega
      rw [b2a_base64, a2b_first (by omega), a2b_second (by omega), hfirst, hleft,
        a2b_third (by omega), hsecond, hleft', a2b_fourth (by omega), hthird, ih,
        UInt8.ofNat_toNat, UInt8.ofNat_toNat, UInt8.ofNat_toNat]
      rfl

theorem ascii_b2a (s : Bytes) : ∀ c ∈ b2a_base64 s, c.toNat < 128 := by
  have hchar {v : Nat} (h : v < 64) : (b64_char v).toNat < 128 := (b64_char_spec h).2.2
  have hpad : '='.toNat < 128 := by decide
  induction s using b2a_base64.induct with
  | case1 => simp [b2a_base64]
  | case2 a =>
      have ha := a.toNat_lt
      simp only [b2a_base64, List.forall_mem_cons]
      exact ⟨hchar (by omega), hchar (by omega), hpad, hpad, by simp⟩
  | case3 a b =>
      have ha := a.toNat_lt
      have hb := b.toNat_lt
      simp only [b2a_base64, List.forall_mem_cons]
      exact ⟨hchar (by omega), hchar (by omega), hchar (by omega), hpad, by simp⟩
  | case4 a b c data ih =>
      have ha := a.toNat_lt
      have hb := b.toNat_lt
      have hc := c.toNat_lt
      simp only [b2a_base64, List.forall_mem_cons]
      exact ⟨hchar (by omega), hchar (by omega), hchar (by omega), hchar (by omega), ih⟩

theorem b64decode_b64encode (s : Bytes) : b64decode (.bytes (b64encode s)) = some s := by
  rw [b64decode, b64encode, List.map_map]
  have hsame : (b2a_base64 s).map ((fun x : UInt8 => Char.ofNat x.toNat) ∘ fun c =>
      UInt8.ofNat c.toNat) = b2a_base64 s := by
    refine (List.map_congr_left fun c hc => ?_).trans (List.map_id _)
    have hc := ascii_b2a s c hc
    rw [Function.comp_apply, UInt8.toNat_ofNat', Nat.mod_eq_of_lt (by omega), Char.ofNat_toNat]
    rfl
  rw [hsame, a2b_b2a]

/-! ### Padding -/

/-- `_pack_data`: as many characters as are missing to a whole block, each with that number. -/
def pack_data (s : Bytes) : Bytes :=
  let n := 16 - s.length % 16
  s ++ encode (List.replicate n (Char.ofNat n))

theorem encode_replicate {n : Nat} (h : n < 128) (k : Nat) :
    encode (List.replicate k (Char.ofNat n)) = List.replicate k (UInt8.ofNat n) := by
  have hchar : String.utf8EncodeChar (Char.ofNat n) = [UInt8.ofNat n] := by
    rw [Lib.utf8EncodeChar_eq, toNat_ofNat (.inl (by omega)), if_pos (by omega)]
  induction k with
  | zero => rfl
  | succ k ih => rw [List.replicate_succ, encode_cons, hchar, ih, List.replicate_succ]; rfl

theorem pack_data_eq (s : Bytes) : pack_data s =
    s ++ List.replicate (16 - s.length % 16) (UInt8.ofNat (16 - s.length % 16)) := by
  rw [pack_data, encode_replicate (by omega)]

theorem length_pack_data (s : Bytes) : (pack_data s).length % 16 = 0 := by
  rw [pack_data_eq, List.length_append, List.length_replicate]
  omega

/-- **The last byte says how many were added.** -/
theorem unpack_pack (s : Bytes) : unpack_data (pack_data s) = (decode s).map String.ofList := by
  have hpos : 0 < 16 - s.length % 16 := by omega
  have hlast : (pack_data s).getLast? = some (UInt8.ofNat (16 - s.length % 16)) := by
    rw [pack_data_eq, List.getLast?_append, List.getLast?_replicate, if_neg (by omega)]
    rfl
  -- at least one was added, and no more than sixteen: the last byte is that number, and not zero
  have hnum : (UInt8.ofNat (16 - s.length % 16)).toNat = 16 - s.length % 16 := by
    rw [UInt8.toNat_ofNat', Nat.mod_eq_of_lt (by omega)]
  have hne : UInt8.ofNat (16 - s.length % 16) ≠ 0 := by
    intro heq
    rw [heq] at hnum
    exact absurd hnum.symm (by simpa using Nat.ne_of_gt hpos)
  have htake : (pack_data s).take ((pack_data s).length - (16 - s.length % 16)) = s := by
    rw [pack_data_eq, List.length_append, List.length_replicate, Nat.add_sub_cancel_right,
      List.take_left]
  rw [unpack_data, hlast]
  simp only [hne, if_false, hnum, htake]

/-! ### The key -/

/-- The loop goes on to at least as many bytes as are asked for. -/
theorem le_extend_key (prim : Primitives) (key salt : Bytes) (output : Nat) (last final_key : Bytes) :
    output ≤ (extend_key prim key salt output last final_key).length := by
  fun_induction extend_key prim key salt output last final_key with
  | case1 last final_key h ih => exact ih
  | case2 last final_key h => omega

theorem length_make_key (prim : Primitives) (key salt : Bytes) (output : Nat) :
    (make_key prim key salt output).length = output := by
  rw [make_key, List.length_take, Nat.min_eq_left (le_extend_key ..)]

/-! ### The ciphers -/

/-- What `Random.new().read(n)` returns. -/
abbrev Read (n : Nat) := { b : Bytes // b.length = n }

/-- The hashes and AES in CBC mode, which takes a key of 32 bytes, an `iv` of 16 and whole blocks. -/
structure Crypto extends Primitives where
  sha256 : Bytes → Bytes
  sha256_length : ∀ b, (sha256 b).length = 32
  aes_cbc_encrypt : Bytes → Bytes → Bytes → Bytes

/-- Whole blocks are encrypted to whole blocks, and decryption inverts that. -/
structure Crypto.Inverts (c : Crypto) : Prop where
  whole : ∀ key iv blocks, key.length = 32 → iv.length = 16 → blocks.length % 16 = 0 →
    (c.aes_cbc_encrypt key iv blocks).length % 16 = 0
  inverts : ∀ key iv blocks, key.length = 32 → iv.length = 16 → blocks.length % 16 = 0 →
    c.aes_cbc_decrypt key iv (c.aes_cbc_encrypt key iv blocks) = blocks

section
variable (c : Crypto)

/-- `cipher.decrypt` and `_unpack_data`; both refuse what was not encrypted. -/
def decrypt_blocks (key iv blocks : Bytes) : Option Str :=
  if iv.length = 16 ∧ blocks.length % 16 = 0 then
    (unpack_data (c.aes_cbc_decrypt key iv blocks)).map str
  else none

namespace AESCipher

/-- `self.key` -/
def key (key : Str) : Option Bytes := (utf8 key).map c.sha256

def encrypt (key : Str) (iv : Read 16) (raw : Data) : Option Bytes :=
  (AESCipher.key c key).bind fun key => raw.to_bytes.map fun raw =>
    b64encode (iv.1 ++ c.aes_cbc_encrypt key iv.1 (pack_data raw))

def decrypt (key : Str) (enc : Data) : Option Str :=
  (AESCipher.key c key).bind fun key => (b64decode enc).bind fun enc =>
    decrypt_blocks c key (enc.take 16) (enc.drop 16)

end AESCipher

namespace AESCipherV2

/-- A `str` is no `bytes` that could be padded. -/
def encrypt (key : Data) (salt : Read 8) : Data → Option Bytes
  | .str _ => none
  | .bytes raw => key.to_bytes.map fun key =>
    let key_iv := make_key c.toPrimitives key salt.1 (32 + 16)
    b64encode (salted ++ salt.1 ++
      c.aes_cbc_encrypt (key_iv.take 32) (key_iv.drop 32) (pack_data raw))

def decrypt (key enc : Data) : Option Str :=
  key.to_bytes.bind fun key => (b64decode enc).bind fun data =>
    if data.take 8 ≠ salted then some []
    else
      let key_iv := make_key c.toPrimitives key ((data.drop 8).take 8) (32 + 16)
      decrypt_blocks c (key_iv.take 32) (key_iv.drop 32) (data.drop 16)

end AESCipherV2
end

section
variable {c : Crypto} {s : Str} {b : Bytes}

/-- What was padded and encrypted is decrypted to the text. -/
theorem decrypt_blocks_encrypt (hc : c.Inverts) (hs : utf8 s = some b) {key iv : Bytes}
    (hkey : key.length = 32) (hiv : iv.length = 16) :
    decrypt_blocks c key iv (c.aes_cbc_encrypt key iv (pack_data b)) = some s := by
  have hpack := length_pack_data b
  rw [decrypt_blocks, if_pos ⟨hiv, hc.whole key iv _ hkey hiv hpack⟩,
    hc.inverts key iv _ hkey hiv hpack, unpack_pack, str_of_decode hs]

theorem AESCipher.inverts (hc : c.Inverts) (hs : utf8 s = some b) {key : Str} {k : Bytes}
    (hkey : utf8 key = some k) (iv : Read 16) :
    ∃ enc, AESCipher.encrypt c key iv (.str s) = some enc ∧
      AESCipher.decrypt c key (.bytes enc) = some s := by
  have hk : AESCipher.key c key = some (c.sha256 k) := by rw [AESCipher.key, hkey, Option.map_some]
  refine ⟨b64encode (iv.1 ++ c.aes_cbc_encrypt (c.sha256 k) iv.1 (pack_data b)), ?_, ?_⟩
  · rw [AESCipher.encrypt, hk, Option.bind_some, Data.to_bytes, hs, Option.map_some]
  · rw [AESCipher.decrypt, hk, Option.bind_some, b64decode_b64encode, Option.bind_some,
      List.take_left' iv.2, List.drop_left' iv.2]
    exact decrypt_blocks_encrypt hc hs (c.sha256_length k) iv.2

theorem AESCipherV2.inverts (hc : c.Inverts) (hs : utf8 s = some b) {key : Data} {k : Bytes}
    (hkey : key.to_bytes = some k) (salt : Read 8) :
    ∃ enc, AESCipherV2.encrypt c key salt (.bytes b) = some enc ∧
      AESCipherV2.decrypt c key (.bytes enc) = some s := by
  let key_iv := make_key c.toPrimitives k salt.1 (32 + 16)
  have hlen : key_iv.length = 48 := length_make_key ..
  have hsalted : salted.length = 8 := by decide
  have hframe : (salted ++ salt.1).length = 16 := by rw [List.length_append, hsalted, salt.2]
  refine ⟨b64encode (salted ++ salt.1 ++
    c.aes_cbc_encrypt (key_iv.take 32) (key_iv.drop 32) (pack_data b)), ?_, ?_⟩
  · rw [AESCipherV2.encrypt, hkey, Option.map_some]
  · rw [AESCipherV2.decrypt, hkey, Option.bind_some, b64decode_b64encode, Option.bind_some]
    have hfront : (salted ++ salt.1 ++ c.aes_cbc_encrypt (key_iv.take 32) (key_iv.drop 32)
        (pack_data b)).take 8 = salted := by rw [List.append_assoc, List.take_left' hsalted]
    have hsalt : ((salted ++ salt.1 ++ c.aes_cbc_encrypt (key_iv.take 32) (key_iv.drop 32)
        (pack_data b)).drop 8).take 8 = salt.1 := by
      rw [List.append_assoc, List.drop_left' hsalted, List.take_left' salt.2]
    rw [if_neg (not_not_intro hfront), hsalt, List.drop_left' hframe]
    exact decrypt_blocks_encrypt hc hs (by rw [List.length_take, hlen]; rfl)
      (by rw [List.length_drop, hlen])

/-- `Auth.Password.decrypt` is `decrypt`, of texts that have an encoding. -/
theorem AESCipherV2.decrypt_str (key enc : String) :
    AESCipherV2.decrypt c (.str (str key)) (.str (str enc)) =
      (Auth.Password.decrypt c.toPrimitives key enc).map str := by
  have hkey : (Data.str (str key)).to_bytes = some (encode key.toList) := by
    have hvalid : ((str key).all fun x => Nat.isValidChar x) = true := by
      rw [str, List.all_map, List.all_eq_true]
      exact fun x _ => decide_eq_true x.valid
    rw [Data.to_bytes, utf8, if_pos hvalid, map_ofNat_str]
  have henc : b64decode (.str (str enc)) = Auth.Password.b64decode enc := by
    rw [b64decode, Auth.Password.b64decode, map_ofNat_str, str, List.all_map]
    rfl
  rw [AESCipherV2.decrypt, hkey, Option.bind_some, henc, Auth.Password.decrypt]
  cases Auth.Password.b64decode enc with
  | none => rfl
  | some data =>
      rw [Option.bind_some, Option.bind_some]
      by_cases hsalted : data.take 8 ≠ salted
      · rw [if_pos hsalted, if_pos hsalted]
        rfl
      · have hiv : ((make_key c.toPrimitives (encode key.toList) ((data.drop 8).take 8)
            (32 + 16)).drop 32).length = 16 := by rw [List.length_drop, length_make_key]
        rw [if_neg hsalted, if_neg hsalted]
        simp only [decrypt_blocks, hiv, true_and, apply_ite (Option.map str), Option.map_none]

/-- **Both ciphers give back a text that has an encoding**, and there are always 48 bytes of key. -/
theorem ciphers_invert (hc : c.Inverts) (hs : utf8 s = some b) {key : Str} {key₂ : Data}
    {k k₂ : Bytes} (hkey : utf8 key = some k) (hkey₂ : key₂.to_bytes = some k₂) (iv : Read 16)
    (salt : Read 8) :
    (∃ enc, AESCipher.encrypt c key iv (.str s) = some enc ∧
      AESCipher.decrypt c key (.bytes enc) = some s) ∧
    (∃ enc, AESCipherV2.encrypt c key₂ salt (.bytes b) = some enc ∧
      AESCipherV2.decrypt c key₂ (.bytes enc) = some s) ∧
    ∀ key salt, (make_key c.toPrimitives key salt (32 + 16)).length = 48 :=
  ⟨AESCipher.inverts hc hs hkey iv, AESCipherV2.inverts hc hs hkey₂ salt,
    fun _ _ => length_make_key ..⟩

end

/-! ### A key and a text -/

def sample_iv : Read 16 := ⟨List.replicate 16 0, rfl⟩

def sample_salt : Read 8 := ⟨List.replicate 8 0, rfl⟩

/-- What is known of MD5: the three digests of which the key `"k"` and the salt make a key. -/
def sample_digests : List Bytes :=
  [[204, 76, 148, 175, 217, 13, 151, 230, 106, 133, 219, 91, 85, 132, 254, 88],
    [184, 224, 102, 121, 244, 107, 80, 6, 221, 132, 83, 213, 189, 48, 251, 233],
    [51, 49, 232, 117, 65, 92, 106, 16, 108, 213, 13, 92, 229, 212, 189, 160]]

/-- SHA-256 of `"k"`. -/
def sample_sha256 : Bytes :=
  [130, 84, 195, 41, 169, 40, 80, 246, 213, 57, 221, 55, 111, 72, 22, 238,
    39, 100, 81, 125, 165, 224, 35, 85, 20, 175, 67, 49, 100, 72, 13, 122]

/-- `"é"` in UTF-8, padded. -/
def sample_padded : Bytes := 195 :: 169 :: List.replicate 14 14

/-- The block that `key` and `iv` encrypt the padded `"é"` to, where it is known. -/
def sample_block (key iv : Bytes) : Bytes :=
  if key = sample_sha256 ∧ iv = sample_iv.1 then
    [247, 251, 73, 180, 167, 36, 255, 247, 29, 17, 243, 119, 203, 107, 228, 47]
  else if key = sample_digests[0] ++ sample_digests[1] ∧ iv = sample_digests[2] then
    [70, 78, 190, 243, 116, 174, 255, 234, 195, 220, 15, 54, 46, 188, 98, 201]
  else sample_padded

def sampleCrypto : Crypto where
  md5 b :=
    if b = 107 :: sample_salt.1 then sample_digests[0]
    else if b = sample_digests[0] ++ 107 :: sample_salt.1 then sample_digests[1]
    else if b = sample_digests[1] ++ 107 :: sample_salt.1 then sample_digests[2]
    else List.replicate 16 0
  md5_length b := by split_ifs <;> rfl
  sha256 b := if b = [107] then sample_sha256 else List.replicate 32 0
  sha256_length b := by split_ifs <;> rfl
  aes_cbc_encrypt key iv := Equiv.swap sample_padded (sample_block key iv)
  aes_cbc_decrypt key iv := Equiv.swap sample_padded (sample_block key iv)

theorem length_sample_block (key iv : Bytes) : (sample_block key iv).length = 16 := by
  rw [sample_block]
  split_ifs <;> rfl

theorem sampleCrypto_inverts : sampleCrypto.Inverts where
  whole key iv blocks _ _ h := by
    have hpad : sample_padded.length = 16 := rfl
    have hblock := length_sample_block key iv
    change (Equiv.swap sample_padded (sample_block key iv) blocks).length % 16 = 0
    rw [Equiv.swap_apply_def]
    split_ifs <;> omega
  inverts key iv blocks _ _ _ := Equiv.swap_apply_self sample_padded (sample_block key iv) blocks

theorem ciphers_invert_sample :
    (∃ enc, AESCipher.encrypt sampleCrypto (str "k") sample_iv (.str (str "é")) = some enc ∧
      AESCipher.decrypt sampleCrypto (str "k") (.bytes enc) = some (str "é")) ∧
    (∃ enc, AESCipherV2.encrypt sampleCrypto (.str (str "k")) sample_salt (.bytes [195, 169]) =
        some enc ∧
      AESCipherV2.decrypt sampleCrypto (.str (str "k")) (.bytes enc) = some (str "é")) ∧
    ∀ key salt, (make_key sampleCrypto.toPrimitives key salt (32 + 16)).length = 48 :=
  have hs : utf8 (str "é") = some [195, 169] := by decide +kernel
  have hkey : utf8 (str "k") = some [107] := by decide +kernel
  have hkey₂ : (Data.str (str "k")).to_bytes = some [107] := hkey
  ciphers_invert sampleCrypto_inverts hs hkey hkey₂ sample_iv sample_salt

/-- A surrogate has no encoding. -/
theorem surrogate_not_encrypted : sampleCrypto.Inverts ∧
    ¬ ∃ enc, AESCipher.encrypt sampleCrypto (str "k") sample_iv (.str [0xd800]) = some enc ∧
      AESCipher.decrypt sampleCrypto (str "k") (.bytes enc) = some [0xd800] := by
  refine ⟨sampleCrypto_inverts, ?_⟩
  rintro ⟨enc, henc, -⟩
  have hnone : AESCipher.encrypt sampleCrypto (str "k") sample_iv (.str [0xd800]) = none := by
    have hraw : (Data.str [0xd800]).to_bytes = none := by rw [Data.to_bytes, utf8, if_neg (by decide)]
    rw [AESCipher.encrypt, hraw]
    exact Option.bind_fun_none _
  exact Option.some_ne_none enc (henc.symm.trans hnone)

end InfraHub.Common.Cipher
