import Sonoff.Utils.AesGcm

/-! # A software SDK

The CRC32 of the SDK and of zlib, bit by bit (reflected polynomial
`0xEDB88320`). Its GCM context enciphers nothing: it runs the model on packages
without encryption.
-/
namespace Sonoff.AesGcm

def crc32Bit (crc : UInt32) : UInt32 := if crc &&& 1 = 1 then (crc >>> 1) ^^^ 0xEDB88320
    else crc >>> 1

def crc32Byte (crc : UInt32) (byte : UInt8) : UInt32 :=
  crc32Bit (crc32Bit
    (crc32Bit (crc32Bit (crc32Bit (crc32Bit (crc32Bit (crc32Bit (crc ^^^ byte.toUInt32))))))))

def softSdk : Sdk Unit where
  crc32Update := List.foldl crc32Byte
  gcmSetkey := fun _ => none
  gcmStarts := fun _ _ => .ok ()
  gcmUpdateAd := fun gcm _ => .ok gcm
  gcmUpdate := fun gcm data => .ok (gcm, data)
  gcmFinish := fun _ => .ok (List.replicate 16 0)
  otaAesKey := List.replicate 32 0

theorem softSdk_incremental : softSdk.Incremental where
  crc_append := fun crc xs ys => List.foldl_append
  update_total := fun _ xs _ => ⟨(), xs, rfl, rfl⟩
  update_append := fun _ xs ys _ _ _ _ _ _ h₁ h₂ => by
    cases h₁
    cases h₂
    rfl

example : snfCrc32 softSdk 0xFFFFFFFF [49, 50, 51, 52, 53, 54, 55, 56, 57] ^^^ 0xFFFFFFFF =
    0xCBF43926 := by
  decide +kernel

end Sonoff.AesGcm
