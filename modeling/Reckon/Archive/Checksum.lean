set_option autoImplicit false

/-!
# Cyclic redundancy checks

Three checksums guard the archives: CRC-32 as zip and xz compute it (the reflected polynomial
`0xEDB88320`, starting and ending with all bits flipped), CRC-64 of xz (the reflected ECMA-182
polynomial `0xC96C5795D7870F42`, likewise flipped), and the CRC-32 of bzip2, which runs the same
polynomial most significant bit first.

Each runs byte by byte over a table of the 256 one-byte remainders.
-/

namespace Reckon.Archive

def reflectedStep (poly : UInt64) : Nat → UInt64 → UInt64
  | 0, c => c
  | k + 1, c => reflectedStep poly k (if c &&& 1 == 1 then (c >>> 1) ^^^ poly else c >>> 1)

def reflectedTable (poly : UInt64) : Array UInt64 :=
  Array.ofFn (n := 256) fun i => reflectedStep poly 8 i.val.toUInt64

def crc32Table : Array UInt64 := reflectedTable 0xEDB88320

def crc64Table : Array UInt64 := reflectedTable 0xC96C5795D7870F42

def reflectedRun (table : Array UInt64) (c : UInt64) (bytes : ByteArray) : UInt64 :=
  bytes.foldl (fun c b => table.getD ((c ^^^ b.toUInt64) &&& 0xFF).toNat 0 ^^^ (c >>> 8)) c

def crc32 (bytes : ByteArray) : UInt32 :=
  (reflectedRun crc32Table 0xFFFFFFFF bytes ^^^ 0xFFFFFFFF).toUInt32

def crc64 (bytes : ByteArray) : UInt64 :=
  reflectedRun crc64Table 0xFFFFFFFFFFFFFFFF bytes ^^^ 0xFFFFFFFFFFFFFFFF

def forwardStep : Nat → UInt32 → UInt32
  | 0, c => c
  | k + 1, c => forwardStep k (if c &&& 0x80000000 != 0 then (c <<< 1) ^^^ 0x04C11DB7 else c <<< 1)

def forwardTable : Array UInt32 :=
  Array.ofFn (n := 256) fun i => forwardStep 8 (i.val.toUInt32 <<< 24)

def forwardByte (c : UInt32) (b : UInt8) : UInt32 :=
  (c <<< 8) ^^^ forwardTable.getD (((c >>> 24) ^^^ b.toUInt32) &&& 0xFF).toNat 0

def crc32Forward (bytes : ByteArray) : UInt32 :=
  bytes.foldl forwardByte 0xFFFFFFFF ^^^ 0xFFFFFFFF

example : crc32 "123456789".toUTF8 = 0xCBF43926 := by decide +kernel

example : crc64 "123456789".toUTF8 = 0x995DC9BBDF1939FA := by decide +kernel

example : crc32Forward "123456789".toUTF8 = 0xFC891918 := by decide +kernel

end Reckon.Archive
