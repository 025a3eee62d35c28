import BootImage.FileStore
import BootImage.Image.Listing
import BootImage.Proofs.Text.Reading

/-! Which listings a text file can hold. Digits, dates and the fixed parts of a listing are ASCII,
and no character of ASCII is a stray. So a file of words can always be encoded, and a package can be
exactly when the name in its header can. -/

namespace BootImage

namespace FileStore

variable {files : FileStore} {text : String} {texts : List String}

theorem encodes_eq_true :
    files.encodes text = true ↔ ∀ c ∈ text.toList, 0x80 ≤ c.toNat → c ∉ files.strays := by
  rw [encodes, List.all_eq_true]
  constructor
  · intro h c hc hwide hstray
    have hheld := h c hstray
    simp [hc, Nat.not_lt.mpr hwide] at hheld
  · intro h c hstray
    by_cases hc : c ∈ text.toList
    · simp [Nat.lt_of_not_le fun hwide => h c hc hwide hstray]
    · simp [hc]

theorem encodes_of_ascii (h : Text.IsAscii text.toList) : files.encodes text = true :=
  encodes_eq_true.mpr fun c hc hwide => absurd (h c hc) (Nat.not_lt.mpr hwide)

theorem encodes_empty : files.encodes "" = true := encodes_of_ascii (by simp [Text.IsAscii])

theorem encodes_append (s t : String) :
    files.encodes (s ++ t) = (files.encodes s && files.encodes t) := by
  rw [Bool.eq_iff_iff, Bool.and_eq_true]
  simp only [encodes_eq_true, String.toList_append, List.forall_mem_append]

theorem encodes_join (h : ∀ text ∈ texts, files.encodes text = true) :
    files.encodes (String.join texts) = true := by
  induction texts with
  | nil => exact encodes_empty
  | cons first rest ih =>
    obtain ⟨hfirst, hrest⟩ := List.forall_mem_cons.mp h
    rw [String.join_cons, encodes_append, hfirst, ih hrest, Bool.and_self]

theorem encodes_intercalate {separator : String} (hseparator : files.encodes separator = true)
    (h : ∀ text ∈ texts, files.encodes text = true) :
    files.encodes (separator.intercalate texts) = true := by
  induction texts with
  | nil => exact encodes_empty
  | cons first rest ih =>
    obtain ⟨hfirst, hrest⟩ := List.forall_mem_cons.mp h
    by_cases hlast : rest = []
    · rw [hlast, String.intercalate_singleton, hfirst]
    · rw [String.intercalate_cons_of_ne_nil hlast, encodes_append, encodes_append, hfirst,
        hseparator, ih hrest, Bool.and_self, Bool.and_self]

end FileStore

namespace Listing

open FileStore (encodes_append encodes_of_ascii encodes_join encodes_intercalate)

variable {files : FileStore}

theorem encodes_hexNumeral (width n : ℕ) : files.encodes (Text.hex width n) = true :=
  encodes_of_ascii (Text.isAscii_hex width n)

theorem encodes_decimal (width n : ℕ) : files.encodes (Text.decimal width n) = true :=
  encodes_of_ascii (Text.isAscii_decimal width n)

theorem encodes_digits (w : UInt32) : files.encodes (digits w) = true :=
  encodes_hexNumeral 8 w.toNat

theorem encodes_hex (ws : List UInt32) : files.encodes (hex ws) = true := by
  apply encodes_join
  intro line hline
  obtain ⟨w, _, rfl⟩ := List.mem_map.mp hline
  simp (disch := decide) only [encodes_append, encodes_of_ascii, encodes_digits, Bool.and_self]

theorem encodes_coe (ws : List UInt32) : files.encodes (coe ws) = true := by
  have hwords : files.encodes (String.intercalate ",\n" (ws.map digits)) = true := by
    refine encodes_intercalate (encodes_of_ascii (by decide)) ?_
    simp [encodes_digits]
  delta coe
  simp (disch := decide +kernel) only [encodes_append, encodes_of_ascii, hwords, Bool.and_self]

theorem encodes_mem (ws : List UInt32) : files.encodes (mem ws) = true := by
  apply encodes_join
  intro line hline
  obtain ⟨entry, _, rfl⟩ := List.mem_map.mp hline
  delta memLine
  simp (disch := decide) only [encodes_append, encodes_of_ascii, encodes_hexNumeral,
    encodes_digits, Bool.and_self]

theorem encodes_mif (ws : List UInt32) : files.encodes (mif ws) = true := by
  have hlines : files.encodes (String.join (ws.zipIdx.map mifLine)) = true := by
    apply encodes_join
    intro line hline
    obtain ⟨entry, _, rfl⟩ := List.mem_map.mp hline
    delta mifLine
    simp (disch := decide) only [encodes_append, encodes_of_ascii, encodes_hexNumeral,
      encodes_digits, Bool.and_self]
  delta mif
  simp (disch := decide +kernel) only [encodes_append, encodes_of_ascii, encodes_decimal, hlines,
    Bool.and_self]

theorem encodes_stamp (built : DateTime) : files.encodes built.stamp = true := by
  delta DateTime.stamp
  simp (disch := decide) only [encodes_append, encodes_of_ascii, encodes_decimal, Bool.and_self]

theorem encodes_vhdlEntry (w : UInt32) : files.encodes (vhdlEntry w) = true := by
  delta vhdlEntry
  simp (disch := decide) only [encodes_append, encodes_of_ascii, encodes_digits, Bool.and_self]

theorem encodes_vhdlTable (ws : List UInt32) : files.encodes (vhdlTable ws) = true := by
  have hentries : files.encodes (String.intercalate ",\n" (ws.map vhdlEntry)) = true := by
    refine encodes_intercalate (encodes_of_ascii (by decide)) ?_
    simp [encodes_vhdlEntry]
  delta vhdlTable
  simp (disch := decide) only [encodes_append, encodes_of_ascii, hentries, Bool.and_self]

theorem encodes_vhdlSecureBoot (signature : List UInt32) (codeWords : ℕ) :
    files.encodes (vhdlSecureBoot signature codeWords) = true := by
  have hentries : files.encodes (String.join (signature.map fun w => vhdlEntry w ++ ",\n")) =
      true := by
    apply encodes_join
    intro line hline
    obtain ⟨w, _, rfl⟩ := List.mem_map.mp hline
    simp (disch := decide) only [encodes_append, encodes_of_ascii, encodes_vhdlEntry,
      Bool.and_self]
  delta vhdlSecureBoot
  simp (disch := decide +kernel) only [encodes_append, encodes_of_ascii, encodes_hexNumeral,
    hentries, Bool.and_self]

structure Package.IsAscii (package : Package) : Prop where
  memory : Text.IsAscii package.memory.toList
  name : Text.IsAscii package.name.toList
  stem : Text.IsAscii package.stem.toList

theorem Package.isAscii_application : Package.application.IsAscii :=
  ⟨by decide +kernel, by decide +kernel, by decide +kernel⟩

theorem Package.isAscii_bootloader : Package.bootloader.IsAscii :=
  ⟨by decide +kernel, by decide +kernel, by decide +kernel⟩

variable {package : Package}

theorem encodes_vhdlOpening (h : package.IsAscii) (source : String) (built : DateTime) (size : ℕ) :
    files.encodes (vhdlOpening package source built size) = files.encodes source := by
  have hmemory : files.encodes package.memory = true := encodes_of_ascii h.memory
  have hname : files.encodes package.name = true := encodes_of_ascii h.name
  have hstem : files.encodes package.stem = true := encodes_of_ascii h.stem
  delta vhdlOpening
  simp (disch := decide +kernel) only [encodes_append, encodes_of_ascii, hmemory, hname, hstem,
    encodes_stamp, encodes_decimal, Bool.and_true, Bool.true_and]

theorem encodes_vhdlClosing (h : package.IsAscii) : files.encodes (vhdlClosing package) = true := by
  have hname : files.encodes package.name = true := encodes_of_ascii h.name
  delta vhdlClosing
  simp (disch := decide) only [encodes_append, encodes_of_ascii, hname, Bool.and_self]

theorem encodes_vhdlApplication (source : String) (built : DateTime) (size : ℕ)
    (ws : List UInt32) :
    files.encodes (vhdlApplication source built size ws) = files.encodes source := by
  rw [vhdlApplication, encodes_append, encodes_append,
    encodes_vhdlOpening Package.isAscii_application, encodes_vhdlTable,
    encodes_vhdlClosing Package.isAscii_application, Bool.and_true, Bool.and_true]

theorem encodes_vhdlBootloader (source : String) (built : DateTime) (size : ℕ)
    (ws signature : List UInt32) :
    files.encodes (vhdlBootloader source built size ws signature) = files.encodes source := by
  rw [vhdlBootloader, encodes_append, encodes_append, encodes_append,
    encodes_vhdlOpening Package.isAscii_bootloader, encodes_vhdlTable, encodes_vhdlSecureBoot,
    encodes_vhdlClosing Package.isAscii_bootloader, Bool.and_true, Bool.and_true, Bool.and_true]

end Listing

end BootImage
