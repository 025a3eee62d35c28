import BootImage.Image.Basic
import BootImage.Proofs.Bytes
import BootImage.Proofs.Image.Signing
import BootImage.Proofs.Listing.Initialization

/-! The word formats of an image. Each rendering, read by the grammar of its own format, gives back
the words of the payload, whatever project, source, build time and signature the image has; so the
formats agree with each other, and the plain listings differ exactly where the words differ. A
header is read back from in front of the words, up to the size that it can hold. -/

namespace BootImage

namespace Header

theorem field?_of_fits {n : ℤ} (h : 0 ≤ n ∧ n < 2 ^ 32) :
    field? n = some (Bytes.ofNatLE 4 n.toNat) := by
  have hfits : 0 ≤ n ∧ n < Word.modulus := by
    simp only [Word.modulus]
    omega
  rw [field?, if_pos hfits]
  rfl

theorem field?_of_not_fits {n : ℤ} (h : 2 ^ 32 ≤ n) : field? n = none := by
  have hfits : ¬ (0 ≤ n ∧ n < Word.modulus) := by
    simp only [Word.modulus]
    omega
  rw [field?, if_neg hfits]

theorem toNatLE_field {n : ℤ} (h : 0 ≤ n ∧ n < 2 ^ 32) :
    (Bytes.toNatLE (Bytes.ofNatLE 4 n.toNat) : ℤ) = n := by
  rw [Bytes.toNatLE_ofNatLE]
  omega

structure Fits (header : Header) : Prop where
  signature : 0 ≤ header.signature ∧ header.signature < 2 ^ 32
  size : 0 ≤ header.size ∧ header.size < 2 ^ 32
  checksum : 0 ≤ header.checksum ∧ header.checksum < 2 ^ 32

theorem toBytes?_of_fits {header : Header} (h : header.Fits) :
    header.toBytes? = some (Bytes.ofNatLE 4 header.signature.toNat ++
      Bytes.ofNatLE 4 header.size.toNat ++ Bytes.ofNatLE 4 header.checksum.toNat) := by
  rw [toBytes?, field?_of_fits h.signature, field?_of_fits h.size, field?_of_fits h.checksum]

theorem ofBytes?_fields {a b c : Bytes} (ha : a.length = 4) (hb : b.length = 4)
    (hc : c.length = 4) (payload : Bytes) :
    ofBytes? (a ++ b ++ c ++ payload) =
      some (⟨Bytes.toNatLE a, Bytes.toNatLE b, Bytes.toNatLE c⟩, payload) := by
  have hab : (a ++ b).length = 4 * 2 := by rw [List.length_append, ha, hb]
  have habc : (a ++ b ++ c).length = byteSize := by
    rw [List.length_append, hab, hc]
    rfl
  have hlong : ¬ (a ++ b ++ c ++ payload).length < byteSize := by
    rw [List.length_append, habc]
    omega
  have hfirst : ((a ++ b ++ c ++ payload).drop (4 * 0)).take 4 = a := by
    rw [List.append_assoc, List.append_assoc]
    exact List.take_left' ha
  have hsecond : ((a ++ b ++ c ++ payload).drop (4 * 1)).take 4 = b := by
    rw [List.append_assoc, List.append_assoc, List.drop_left' (by rw [ha])]
    exact List.take_left' hb
  have hthird : ((a ++ b ++ c ++ payload).drop (4 * 2)).take 4 = c := by
    rw [List.append_assoc, List.drop_left' hab]
    exact List.take_left' hc
  have hrest : (a ++ b ++ c ++ payload).drop byteSize = payload := List.drop_left' habc
  rw [ofBytes?, if_neg hlong]
  simp only [hfirst, hsecond, hthird, hrest]

theorem ofBytes?_append {header : Header} {bytes : Bytes} (hfits : header.Fits)
    (h : header.toBytes? = some bytes) (payload : Bytes) :
    ofBytes? (bytes ++ payload) = some (header, payload) := by
  rw [toBytes?_of_fits hfits, Option.some_inj] at h
  rw [← h, ofBytes?_fields (Bytes.length_ofNatLE 4 _) (Bytes.length_ofNatLE 4 _)
    (Bytes.length_ofNatLE 4 _), toNatLE_field hfits.signature, toNatLE_field hfits.size,
    toNatLE_field hfits.checksum]

theorem ofWords_fits {ws : List UInt32} (h : 4 * ws.length < 2 ^ 32) : (ofWords ws).Fits := by
  have hsum : Word.sumComplement (numbers ws) < 2 ^ 32 := Word.sumComplement_lt (numbers ws)
  constructor
  · simp only [ofWords, magic]
    omega
  · simp only [ofWords, Word.size]
    omega
  · simp only [ofWords]
    omega

theorem toBytes?_ofWords_eq_none {ws : List UInt32} (h : ¬ 4 * ws.length < 2 ^ 32) :
    (ofWords ws).toBytes? = none := by
  have hsize : field? (ofWords ws).size = none := by
    apply field?_of_not_fits
    simp only [ofWords, Word.size]
    omega
  rw [toBytes?, hsize]
  rcases field? (ofWords ws).signature with _ | _ <;> rfl

theorem total_add_sumComplement (ns : List ℤ) :
    (Word.total ns + Word.sumComplement ns) % 2 ^ 32 = 0 := by
  simp only [Word.sumComplement, Word.modulus]
  omega

theorem wholeWords_join (ws : List UInt32) : wholeWords (Word.join ws) = ws := by
  have hall : (Word.join ws).length / 4 * 4 = (Word.join ws).length := by
    rw [Word.length_join, Word.size]
    omega
  rw [wholeWords, hall, List.take_length, Word.split_join]

theorem check_ofWords (ws : List UInt32) :
    (ofWords ws).check (Word.join ws) = ⟨true, true, true⟩ := by
  have hsize : (ofWords ws).size = (Word.join ws).length := by
    rw [Word.length_join, ofWords]
    push_cast
    rfl
  have hsum : (Word.total (numbers ws) + (ofWords ws).checksum) % Word.modulus = 0 :=
    total_add_sumComplement (numbers ws)
  rw [check, hsize, wholeWords_join, hsum]
  simp [ofWords]

end Header

namespace Image

variable {image : Image}

theorem render_appBin (h : 4 * image.words.length < 2 ^ 32) :
    ∃ header, (Header.ofWords image.words).toBytes? = some header ∧
      image.render .appBin = some (.binary (header ++ Word.join image.words)) := by
  have hheader := Header.toBytes?_of_fits (Header.ofWords_fits h)
  refine ⟨_, hheader, ?_⟩
  rw [render, header?, hheader, Option.map_some]

theorem render_appBin_eq_none (h : ¬ 4 * image.words.length < 2 ^ 32) :
    image.render .appBin = none := by
  rw [render, header?, Header.toBytes?_ofWords_eq_none h, Option.map_none]

end Image

/-- The words that a rendering in a format carries, read by the grammar of the format. -/
def carried? : Format → Output → Option (List ℕ)
  | .appBin, .binary file =>
    (Header.ofBytes? file).bind fun parts => Word.numbers? parts.2
  | .appVhd, .text text => Listing.table? (Listing.imageTable .application) text
  | .bldVhd, .text text => Listing.table? (Listing.imageTable .bootloader) text
  | .rawHex, .text text => Listing.hexWords? text
  | .rawCoe, .text text => Listing.coeWords? text
  | .rawMem, .text text => (Listing.memEntries? text).map fun entries => entries.map Prod.snd
  | .rawMif, .text text => (Listing.mif? text).map fun file => file.entries.map Prod.snd
  | _, _ => none

/-- The formats that list the words as text and hold nothing else. -/
def Format.listings : List Format := [.rawHex, .rawCoe, .rawMem, .rawMif]

namespace Image

def numbers (image : Image) : List ℕ := image.words.map UInt32.toNat

variable {image : Image} {format : Format} {output : Output}

theorem words_ne_nil (h : image.payload ≠ []) : image.words ≠ [] := Word.split_ne_nil h

theorem memory?_numbers (image : Image) :
    Listing.memory? image.numbers = some (Word.filled image.payload) := by
  rw [numbers, Listing.memory?_words, words, Word.join_split_filled]

theorem carried?_appBin (h : image.render .appBin = some output) :
    carried? .appBin output = some image.numbers := by
  by_cases hsize : 4 * image.words.length < 2 ^ 32
  · obtain ⟨header, hheader, hrender⟩ := render_appBin hsize
    rw [h, Option.some_inj] at hrender
    rw [hrender, carried?,
      Header.ofBytes?_append (Header.ofWords_fits hsize) hheader, Option.bind_some]
    exact Word.numbers?_join image.words
  · rw [render_appBin_eq_none hsize] at h
    cases h

theorem carried?_render (hpayload : image.payload ≠ []) (hformat : format ≠ .rawBin)
    (h : image.render format = some output) : carried? format output = some image.numbers := by
  have hwords := words_ne_nil hpayload
  cases format with
  | appBin => exact carried?_appBin h
  | appVhd =>
    cases h
    exact Listing.table?_application _ _ _ hwords
  | bldVhd =>
    cases h
    exact Listing.table?_image _ _ _ hwords _
  | rawHex =>
    cases h
    exact Listing.hexWords?_hex image.words
  | rawBin => exact absurd rfl hformat
  | rawCoe =>
    cases h
    exact Listing.coeWords?_coe hwords
  | rawMem =>
    cases h
    rw [carried?, Listing.memEntries?_mem, Option.map_some, Listing.addressed_snd]
    rfl
  | rawMif =>
    cases h
    rw [carried?, Listing.mif?_mif, Option.map_some, Listing.addressed_snd]
    rfl

theorem render_listing (h : format ∈ Format.listings) :
    ∃ write : List UInt32 → String,
      ∀ image : Image, image.render format = some (.text (write image.words)) := by
  simp only [Format.listings, List.mem_cons, List.not_mem_nil, or_false] at h
  rcases h with rfl | rfl | rfl | rfl
  · exact ⟨Listing.hex, fun _ => rfl⟩
  · exact ⟨Listing.coe, fun _ => rfl⟩
  · exact ⟨Listing.mem, fun _ => rfl⟩
  · exact ⟨Listing.mif, fun _ => rfl⟩

theorem numbers_inj {other : Image} :
    image.numbers = other.numbers ↔ Word.filled image.payload = Word.filled other.payload := by
  have hinj : Function.Injective UInt32.toNat := fun _ _ h => UInt32.toNat_inj.mp h
  rw [← Word.split_eq_iff]
  exact (List.map_injective_iff.mpr hinj).eq_iff

theorem listing_inj {other : Image} (hpayload : image.payload ≠ []) (hother : other.payload ≠ [])
    (hformat : format ∈ Format.listings) :
    ∃ text otherText, image.render format = some (.text text) ∧
      other.render format = some (.text otherText) ∧
      (text = otherText ↔ Word.filled image.payload = Word.filled other.payload) := by
  obtain ⟨write, hwrite⟩ := render_listing hformat
  have hword : format ≠ .rawBin := by
    rintro rfl
    exact absurd hformat (by decide)
  refine ⟨write image.words, write other.words, hwrite image, hwrite other, ?_⟩
  rw [← numbers_inj]
  constructor
  · intro hsame
    have hread := carried?_render hpayload hword (hwrite image)
    rw [hsame, carried?_render hother hword (hwrite other), Option.some_inj] at hread
    exact hread.symm
  · intro hsame
    have hwords : image.words = other.words :=
      Word.split_eq_iff.mpr (numbers_inj.mp hsame)
    rw [hwords]

theorem emit_of_render (h : image.render format = some output) :
    image.emit format = .ok { image with output := some output } := by
  rw [emit, h]

theorem emit_of_render_eq_none (h : image.render format = none) :
    image.emit format = .error .sizeOverflow := by
  rw [emit, h]

theorem render_isSome (h : format ≠ .appBin) (image : Image) :
    ∃ output, image.render format = some output := by
  cases format with
  | appBin => exact absurd rfl h
  | appVhd | bldVhd | rawHex | rawBin | rawCoe | rawMem | rawMif => exact ⟨_, rfl⟩

end Image

namespace Session

variable {s : Session} {reply : ProgramReply} {signer : Option Signer} {fixed : Option Bytes}
  {format : Format} {output : Output}

/-- Rendering in a format answers with an output. -/
def Creates (s : Session) (reply : ProgramReply) (format : Format) (signer : Option Signer)
    (fixed : Option Bytes) (output : Output) : Prop :=
  (s.next reply (.create format.name signer fixed)).2.outcome = .ok (.output output)

theorem next_unsigned_of_render (h : format ≠ .bldVhd)
    (hrender : s.image.render format = some output) (reply : ProgramReply)
    (signer : Option Signer) (fixed : Option Bytes) :
    s.next reply (.create format.name signer fixed) =
      ({ s with image := { s.image with output := some output } },
        { outcome := .ok (.output output) }) := by
  rw [next_create, create_name, Image.createAs_unsigned h, Image.emit_of_render hrender]

theorem next_unsigned_of_render_eq_none (h : format ≠ .bldVhd)
    (hrender : s.image.render format = none) (reply : ProgramReply) (signer : Option Signer)
    (fixed : Option Bytes) :
    s.next reply (.create format.name signer fixed) =
      (s, { outcome := .error (.create .sizeOverflow) }) := by
  rw [next_create, create_name, Image.createAs_unsigned h, Image.emit_of_render_eq_none hrender]

theorem creates_unsigned (h : format ≠ .bldVhd) :
    s.Creates reply format signer fixed output ↔ s.image.render format = some output := by
  constructor
  · intro hcreates
    cases hrender : s.image.render format with
    | none =>
      rw [Creates, next_unsigned_of_render_eq_none h hrender] at hcreates
      cases hcreates
    | some rendered =>
      rw [Creates, next_unsigned_of_render h hrender] at hcreates
      cases hcreates
      rfl
  · intro hrender
    rw [Creates, next_unsigned_of_render h hrender]

theorem Creates.rendered (h : s.Creates reply format signer fixed output) :
    ∃ signature, ({ s.image with signature } : Image).render format = some output := by
  by_cases hformat : format = .bldVhd
  · subst hformat
    obtain ⟨signature, hsignature⟩ := succeeds_bldVhd.mp ⟨_, h⟩
    have hsame := (next_bldVhd_ok hsignature).2.symm.trans h
    cases hsame
    exact ⟨some signature, rfl⟩
  · exact ⟨s.image.signature, (creates_unsigned hformat).mp h⟩

/-- A session whose renderings all carry the same words, and what the words are. Whether there is a
rendering depends on the format: an executable with a header has a size limit, and a bootloader
needs a signature. -/
structure CarriesImage (s : Session) (numbers : List ℕ) : Prop where
  packed : Listing.memory? numbers = some (Word.filled s.image.payload)
  carried : ∀ reply format signer fixed output, format ≠ .rawBin →
    s.Creates reply format signer fixed output → carried? format output = some numbers
  unsigned : ∀ reply format signer fixed, format ≠ .appBin → format ≠ .bldVhd →
    ∃ output, s.Creates reply format signer fixed output
  header : ∀ reply signer fixed, 4 * numbers.length < 2 ^ 32 →
    ∃ output, s.Creates reply .appBin signer fixed output
  bootloader : ∀ reply signer fixed, fixed.length = 256 →
    ∃ output, s.Creates reply .bldVhd signer (some fixed) output
  memAddresses : ∀ reply signer fixed text, s.Creates reply .rawMem signer fixed (.text text) →
    ∃ entries, Listing.memEntries? text = some entries ∧
      entries.map Prod.fst = List.range numbers.length
  mifAddresses : ∀ reply signer fixed text, s.Creates reply .rawMif signer fixed (.text text) →
    ∃ file, Listing.mif? text = some file ∧ file.depth = numbers.length ∧ file.width = 32 ∧
      file.entries.map Prod.fst = List.range numbers.length
  distinct : ∀ (other : Session), other.image.payload ≠ [] → ∀ format ∈ Format.listings,
    ∀ reply signer fixed text, s.Creates reply format signer fixed (.text text) →
    ∀ otherReply otherSigner otherFixed otherText,
    other.Creates otherReply format otherSigner otherFixed (.text otherText) →
    (text = otherText ↔ Word.filled s.image.payload = Word.filled other.image.payload)

theorem formats_carry_image (s : Session) (h : s.image.payload ≠ []) :
    s.CarriesImage (s.image.words.map UInt32.toNat) where
  packed := Image.memory?_numbers s.image
  carried := by
    intro reply format signer fixed output hformat hcreates
    obtain ⟨signature, hrender⟩ := hcreates.rendered
    have hpayload : ({ s.image with signature } : Image).payload ≠ [] := h
    have hcarried := Image.carried?_render hpayload hformat hrender
    exact hcarried
  unsigned := by
    intro reply format signer fixed happBin hbldVhd
    obtain ⟨output, hrender⟩ := Image.render_isSome happBin s.image
    exact ⟨output, (creates_unsigned hbldVhd).mpr hrender⟩
  header := by
    intro reply signer fixed hsize
    rw [List.length_map] at hsize
    obtain ⟨header, _, hrender⟩ := Image.render_appBin hsize
    exact ⟨_, (creates_unsigned (by decide)).mpr hrender⟩
  bootloader := by
    intro reply signer fixed hlen
    have hfixed := (Image.signatureFor_fixed s.image reply signer fixed).2 fixed
    exact ⟨_, (next_bldVhd_ok (hfixed.mpr ⟨rfl, hlen⟩)).2⟩
  memAddresses := by
    intro reply signer fixed text hcreates
    cases (creates_unsigned (by decide)).mp hcreates
    exact ⟨_, Listing.memEntries?_mem _, Listing.addressed_fst _⟩
  mifAddresses := by
    intro reply signer fixed text hcreates
    cases (creates_unsigned (by decide)).mp hcreates
    exact ⟨_, Listing.mif?_mif _, (List.length_map _).symm, rfl, Listing.addressed_fst _⟩
  distinct := by
    intro other hother format hformat reply signer fixed text hcreates otherReply otherSigner
      otherFixed otherText hotherCreates
    have hunsigned : format ≠ .bldVhd := by
      rintro rfl
      exact absurd hformat (by decide)
    obtain ⟨written, otherWritten, hrender, hotherRender, hsame⟩ :=
      Image.listing_inj h hother hformat
    rw [creates_unsigned hunsigned, hrender] at hcreates
    rw [creates_unsigned hunsigned, hotherRender] at hotherCreates
    cases hcreates
    cases hotherCreates
    exact hsame

/-- A session with two words to render, the second of them filled, and a project whose name holds
the line that opens a table. -/
def fiveBytes : Session where
  image :=
    { project := some "p\nconstant application_init_image_c : mem32_t := (\n"
      built := ⟨2024, 1, 2, 3, 4, 5⟩
      source := some "a.bin"
      payload := [0x93, 0x00, 0x10, 0x00, 0x6f] }
  files := {}

theorem five_bytes_carried :
    fiveBytes.image.payload ≠ [] ∧
    ∀ format, format ≠ .rawBin →
      ∃ output, fiveBytes.Creates .absent format none (some (Bytes.zeros 256)) output ∧
        carried? format output = some [0x00100093, 0x6f] := by
  have hpayload : fiveBytes.image.payload ≠ [] := by decide
  have hcarries := formats_carry_image fiveBytes hpayload
  refine ⟨hpayload, fun format hformat => ?_⟩
  have hcreates :
      ∃ output, fiveBytes.Creates .absent format none (some (Bytes.zeros 256)) output := by
    by_cases happBin : format = .appBin
    · subst happBin
      exact hcarries.header _ _ _ (by decide)
    · by_cases hbldVhd : format = .bldVhd
      · subst hbldVhd
        exact hcarries.bootloader _ _ _ List.length_replicate
      · exact hcarries.unsigned _ _ _ _ happBin hbldVhd
  obtain ⟨output, hcreates⟩ := hcreates
  exact ⟨output, hcreates, hcarries.carried _ _ _ _ _ hformat hcreates⟩

end Session

end BootImage
