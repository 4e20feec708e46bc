import Sonoff.Base.Bytes

/-! # SHA-256

The padded message is taken in blocks of 64 bytes; sixteen words of a block grow to
sixty-four, and each is mixed into the eight words of the state.
-/
namespace Sonoff.Utils.Sha256
open Bytes

structure State where
  a : UInt32
  b : UInt32
  c : UInt32
  d : UInt32
  e : UInt32
  f : UInt32
  g : UInt32
  h : UInt32

def rotr (x n : UInt32) : UInt32 := (x >>> n) ||| (x <<< (32 - n))

def init : State :=
  ⟨0x6a09e667, 0xbb67ae85, 0x3c6ef372, 0xa54ff53a, 0x510e527f, 0x9b05688c, 0x1f83d9ab, 0x5be0cd19⟩

def constants : List UInt32 :=
  [0x428a2f98, 0x71374491, 0xb5c0fbcf, 0xe9b5dba5, 0x3956c25b, 0x59f111f1, 0x923f82a4, 0xab1c5ed5,
  0xd807aa98, 0x12835b01, 0x243185be, 0x550c7dc3, 0x72be5d74, 0x80deb1fe, 0x9bdc06a7, 0xc19bf174,
  0xe49b69c1, 0xefbe4786, 0x0fc19dc6, 0x240ca1cc, 0x2de92c6f, 0x4a7484aa, 0x5cb0a9dc, 0x76f988da,
  0x983e5152, 0xa831c66d, 0xb00327c8, 0xbf597fc7, 0xc6e00bf3, 0xd5a79147, 0x06ca6351, 0x14292967,
  0x27b70a85, 0x2e1b2138, 0x4d2c6dfc, 0x53380d13, 0x650a7354, 0x766a0abb, 0x81c2c92e, 0x92722c85,
  0xa2bfe8a1, 0xa81a664b, 0xc24b8b70, 0xc76c51a3, 0xd192e819, 0xd6990624, 0xf40e3585, 0x106aa070,
  0x19a4c116, 0x1e376c08, 0x2748774c, 0x34b0bcb5, 0x391c0cb3, 0x4ed8aa4a, 0x5b9cca4f, 0x682e6ff3,
  0x748f82ee, 0x78a5636f, 0x84c87814, 0x8cc70208, 0x90befffa, 0xa4506ceb, 0xbef9a3f7, 0xc67178f2]

/-- One more word in front of the words so far, the newest first. -/
def extend (ws : List UInt32) : List UInt32 :=
  let w₁₅ := ws.getD 14 0
  let w₂ := ws.getD 1 0
  let s₀ := rotr w₁₅ 7 ^^^ rotr w₁₅ 18 ^^^ (w₁₅ >>> 3)
  let s₁ := rotr w₂ 17 ^^^ rotr w₂ 19 ^^^ (w₂ >>> 10)
  (ws.getD 15 0 + s₀ + ws.getD 6 0 + s₁) :: ws

def schedule (block : List UInt8) : List UInt32 :=
  let words := (List.range 16).map fun i => UInt32.ofNat (be32 block (4 * i))
  ((List.range 48).foldl (fun ws _ => extend ws) words.reverse).reverse

def round (st : State) (kw : UInt32 × UInt32) : State :=
  let s₁ := rotr st.e 6 ^^^ rotr st.e 11 ^^^ rotr st.e 25
  let ch := (st.e &&& st.f) ^^^ (~~~st.e &&& st.g)
  let t₁ := st.h + s₁ + ch + kw.1 + kw.2
  let s₀ := rotr st.a 2 ^^^ rotr st.a 13 ^^^ rotr st.a 22
  let maj := (st.a &&& st.b) ^^^ (st.a &&& st.c) ^^^ (st.b &&& st.c)
  ⟨t₁ + (s₀ + maj), st.a, st.b, st.c, st.d + t₁, st.e, st.f, st.g⟩

def compress (st : State) (block : List UInt8) : State :=
  let t := (constants.zip (schedule block)).foldl round st
  ⟨st.a + t.a, st.b + t.b, st.c + t.c, st.d + t.d, st.e + t.e, st.f + t.f, st.g + t.g, st.h + t.h⟩

/-- A one bit, zeros, and the number of bits behind them. -/
def padded (data : List UInt8) : List UInt8 :=
  let zeros := (119 - data.length % 64) % 64
  data ++ [0x80] ++ List.replicate zeros 0 ++ packBe32 (data.length * 8 / 4294967296) ++
    packBe32 (data.length * 8)

def digest (st : State) : List UInt8 :=
  [st.a, st.b, st.c, st.d, st.e, st.f, st.g, st.h].flatMap fun w => packBe32 w.toNat

def sha256 (data : List UInt8) : List UInt8 :=
  let message := padded data
  digest ((List.range (message.length / 64)).foldl (fun st i =>
    compress st (slice message (64 * i) 64)) init)

theorem sha256_length (data : List UInt8) : (sha256 data).length = 32 := rfl

/-- `abc` -/
example : sha256 [97, 98, 99] =
    [0xba, 0x78, 0x16, 0xbf, 0x8f, 0x01, 0xcf, 0xea, 0x41, 0x41, 0x40, 0xde, 0x5d, 0xae, 0x22, 0x23,
      0xb0, 0x03, 0x61, 0xa3, 0x96, 0x17, 0x7a, 0x9c, 0xb4, 0x10, 0xff, 0x61, 0xf2, 0x00, 0x15,
      0xad] := by
  decide +kernel

end Sonoff.Utils.Sha256
