import Mathlib
import WallUnit.Firmware.Esp

/-!
Owns the WAV container as `wav_util.c` writes it.

Does not own the reader.
-/

namespace WallUnit.Firmware.Wav

/-- The `width` low bytes of a number, least significant first, as `memcpy` of an
unsigned integer lays them out on a little-endian machine. -/
def littleEndian : Nat → Nat → List UInt8
  | 0, _ => []
  | width + 1, value => UInt8.ofNat value :: littleEndian width (value / 256)

/-- A string literal as bytes. -/
def ascii (text : String) : List UInt8 := text.toList.map fun char => UInt8.ofNat char.toNat

/-- The two bytes of an `int16_t`. -/
def sampleBytes (sample : Int) : List UInt8 := littleEndian 2 (sample % 65536).toNat

def pcmBytes (pcm : List Int) : List UInt8 := pcm.flatMap sampleBytes

/-- `wav_wrap`: the 44-byte header and the samples, in 32-bit arithmetic. -/
def wavWrap (pcm : List Int) (sampleRate : Nat) : List UInt8 :=
  let channels := 1
  let bps := 16
  let byteRate := sampleRate * channels * bps % 2 ^ 32 / 8
  let blockAlign := channels * bps / 8
  let dataSize := pcm.length * blockAlign % 2 ^ 32
  let wavSize := (44 + dataSize) % 2 ^ 32
  ascii "RIFF" ++ littleEndian 4 (wavSize - 8) ++ ascii "WAVE" ++
    ascii "fmt " ++ littleEndian 4 16 ++ littleEndian 2 1 ++ littleEndian 2 channels ++
    littleEndian 4 sampleRate ++ littleEndian 4 byteRate ++ littleEndian 2 blockAlign ++
    littleEndian 2 bps ++
    ascii "data" ++ littleEndian 4 dataSize ++ (pcmBytes pcm).take dataSize

end WallUnit.Firmware.Wav
