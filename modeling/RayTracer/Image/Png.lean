import RayTracer.Image.Format

/-!
# PNG files

A frame is written with eight bits for each of the three colors.  The pixel data are stored in a
zlib stream without compression.
-/

namespace RayTracer.Png

/-- The bytes of a 32-bit number, the highest first. -/
def bigEndian (w : UInt32) : List UInt8 :=
  [(w >>> 24).toUInt8, (w >>> 16).toUInt8, (w >>> 8).toUInt8, w.toUInt8]

/-- One bit of the division behind the cyclic redundancy check. -/
def crcBit (c : UInt32) : UInt32 :=
  if c % 2 = 1 then (0xedb88320 : UInt32) ^^^ (c >>> 1) else c >>> 1

/-- One byte of the cyclic redundancy check. -/
def crcByte (c : UInt32) (b : UInt8) : UInt32 :=
  (List.range 8).foldl (fun c _ => crcBit c) (c ^^^ b.toUInt32)

/-- The cyclic redundancy check of a chunk. -/
def crc (bytes : List UInt8) : UInt32 := ~~~(bytes.foldl crcByte 0xffffffff)

/-- The checksum of a zlib stream. -/
def adler (bytes : List UInt8) : UInt32 :=
  let (a, b) := bytes.foldl (fun (a, b) x =>
    let a := (a + x.toNat) % 65521
    (a, (b + a) % 65521)) (1, 0)
  .ofNat (b * 65536 + a)

/-- A chunk with its length and its check. -/
def chunk (name : String) (data : List UInt8) : List UInt8 :=
  let body := name.toUTF8.toList ++ data
  bigEndian (.ofNat data.length) ++ body ++ bigEndian (crc body)

/-- Blocks of stored bytes, the last of which is marked. -/
def storedBlocks (bytes : List UInt8) : List UInt8 :=
  let part := bytes.take 65535
  let rest := bytes.drop 65535
  let n : UInt16 := .ofNat part.length
  let header (last : UInt8) : List UInt8 :=
    [last, n.toUInt8, (n >>> 8).toUInt8, (~~~n).toUInt8, ((~~~n) >>> 8).toUInt8]
  if _h : rest = [] then header 1 ++ part
  else header 0 ++ part ++ storedBlocks rest
termination_by bytes.length
decreasing_by
  have := List.length_pos_iff.mpr _h
  simp only [rest, List.length_drop] at this ⊢
  omega

/-- A zlib stream that holds the bytes as they are. -/
def zlib (bytes : List UInt8) : List UInt8 :=
  [0x78, 0x01] ++ storedBlocks bytes ++ bigEndian (adler bytes)

/-- The rows of a frame, each with the byte that stands for no filter. -/
def scanlines (frame : Frame) : List UInt8 :=
  (List.range frame.height).flatMap fun y =>
    0 :: (frame.pixels.extract (y * frame.width) ((y + 1) * frame.width)).toList.flatMap
      bytesOfColor

/-- The contents of the file.  The frame has pixels: no image of PNG has the width or the height
zero. -/
def encode (frame : Frame) : List UInt8 :=
  [0x89, 0x50, 0x4e, 0x47, 0x0d, 0x0a, 0x1a, 0x0a] ++
    chunk "IHDR" (bigEndian (.ofNat frame.width) ++ bigEndian (.ofNat frame.height) ++
      [8, 2, 0, 0, 0]) ++
    chunk "IDAT" (zlib (scanlines frame)) ++ chunk "IEND" []

end RayTracer.Png
