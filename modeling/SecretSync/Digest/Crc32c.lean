import SecretSync.Text.Basic

/-!
The Castagnoli checksum of 32 bits, CRC-32C, which Google Cloud sends beside the payload of a secret
version. The operator has it computed by a library; this is the definition that the name stands for,
with register and result inverted. Each bit of the data shifts the register by one; a one that falls
out adds the polynomial.
-/

namespace SecretSync.Crc32c

-- The polynomial, its highest power in the lowest bit.
def polynomial : UInt32 := 0x82F63B78

def bitStep (r : UInt32) : UInt32 :=
  if r &&& 1 = 1 then (r >>> 1) ^^^ polynomial else r >>> 1

def byteStep (r : UInt32) (b : UInt8) : UInt32 :=
  Nat.repeat bitStep 8 (r ^^^ b.toUInt32)

def checksum (bytes : Bytes) : UInt32 :=
  bytes.foldl byteStep 0xFFFFFFFF ^^^ 0xFFFFFFFF

end SecretSync.Crc32c
