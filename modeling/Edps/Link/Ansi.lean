import Edps.OpcS7.Params
import Edps.Sis.Groups

/-!
# Texts between Visual Basic and C

A string that Visual Basic passes to a library goes through the ANSI code page, and so does one
that comes back.  The code page is the one behind `Chr` and `Asc`, a character for each byte.

* `toAnsi`, `ofAnsi` : the conversions.
* `toAnsi_framed`, `ofAnsi_framed` : a text behind its length is the same on both sides.
-/

namespace Edps

namespace Link

open Vb OpcS7 Sis

/-- A Visual Basic string passed as a C string. -/
def toAnsi (R : Runtime) (s : VbString) : Bytes := s.map fun c => UInt8.ofInt (R.asc c)

/-- The Visual Basic string of bytes. -/
def ofAnsi (R : Runtime) (b : Bytes) : VbString :=
  b.map fun c => R.chr ⟨c.toNat, c.toNat_lt⟩

variable {R : Runtime}

theorem ofInt_natCast {n : ℕ} (h : n < 256) : UInt8.ofInt n = UInt8.ofNat n := by
  rw [UInt8.ofInt]
  congr 1
  omega

@[simp] theorem toAnsi_append (s t : VbString) : toAnsi R (s ++ t) = toAnsi R s ++ toAnsi R t :=
  List.map_append

@[simp] theorem length_ofAnsi (b : Bytes) : (ofAnsi R b).length = b.length := List.length_map _

@[simp] theorem toAnsi_ofAnsi (b : Bytes) : toAnsi R (ofAnsi R b) = b := by
  rw [toAnsi, ofAnsi, List.map_map]
  refine List.map_id'' (fun c => ?_) b
  rw [Function.comp_apply, R.asc_chr, ofInt_natCast c.toNat_lt, UInt8.ofNat_toNat]

/-- ASCII codes are the same on both sides. -/
theorem toAnsi_ofCodes {cs : List ℕ} (h : ∀ c ∈ cs, c < 128) :
    toAnsi R (Vb.ofCodes cs) = OpcS7.ofCodes cs := by
  rw [toAnsi, Vb.ofCodes, OpcS7.ofCodes, List.map_map]
  refine List.map_congr_left fun c hc => ?_
  have hlt := h c hc
  rw [Function.comp_apply, ← R.chr_ascii ⟨c, by omega⟩ hlt, R.asc_chr]
  exact ofInt_natCast (by omega)

theorem code_lt_of_mem_padded {k n c : ℕ} (h : c ∈ Decimal.codes (Decimal.padded k n)) :
    c < 128 := by
  obtain ⟨d, hd, rfl⟩ := List.mem_map.1 h
  have := Decimal.lt_of_mem_padded hd
  omega

/-- A text behind its length, passed to a library. -/
theorem toAnsi_framed {b : Bytes} (h : b.length < 1000) :
    toAnsi R (Sis.framed (ofAnsi R b)) = OpcS7.framed b := by
  have hlen : (ofAnsi R b).length < 1000 := by rwa [length_ofAnsi]
  rw [framed_eq hlen, behindLength, toAnsi_append, toAnsi_ofAnsi, length_ofAnsi, digitText,
    Int.toNat_natCast, toAnsi_ofCodes fun _ => code_lt_of_mem_padded]
  rfl

theorem ofAnsi_append (b c : Bytes) : ofAnsi R (b ++ c) = ofAnsi R b ++ ofAnsi R c :=
  List.map_append

theorem ofAnsi_ofCodes {cs : List ℕ} (h : ∀ c ∈ cs, c < 128) :
    ofAnsi R (OpcS7.ofCodes cs) = Vb.ofCodes cs := by
  rw [ofAnsi, OpcS7.ofCodes, Vb.ofCodes, List.map_map]
  refine List.map_congr_left fun c hc => ?_
  have hlt := h c hc
  have hcode : (UInt8.ofNat c).toNat = c := by
    rw [UInt8.toNat_ofNat']
    omega
  rw [Function.comp_apply, ← R.chr_ascii ⟨c, by omega⟩ hlt]
  simp only [hcode]

/-- A text behind its length, passed back. -/
theorem ofAnsi_framed (b : Bytes) : ofAnsi R (OpcS7.framed b) = behindLength (ofAnsi R b) := by
  rw [OpcS7.framed, ofAnsi_append, behindLength, length_ofAnsi, lengthText,
    ofAnsi_ofCodes fun _ => code_lt_of_mem_padded]
  rfl

/-- No zero comes back where none was passed. -/
theorem noNul_ofAnsi {b : Bytes} (h : ∀ c ∈ b, c ≠ 0) : ∀ c ∈ ofAnsi R b, c ≠ 0 := by
  intro c hc hzero
  obtain ⟨byte, hbyte, rfl⟩ := List.mem_map.1 hc
  have hchr : R.chr ⟨0, by decide⟩ = 0 := R.chr_ascii _ (by decide)
  have hasc := R.asc_chr ⟨byte.toNat, byte.toNat_lt⟩
  rw [hzero, ← hchr, R.asc_chr] at hasc
  have hnat : byte.toNat = 0 := (Int.natCast_inj.1 hasc).symm
  exact h byte hbyte (UInt8.toNat_inj.1 hnat)

end Link

end Edps
