import BootImage.Proofs.Image.Formats
import BootImage.Proofs.Image.History
import BootImage.Proofs.Listing.Vhdl

/-! The sizes that outputs state. Packages declare the size of the payload in bytes and list it in
words; a bootloader adds a fixed allowance for its signature; a header states the size of the words.
They agree for every payload, because a signature of another length than the allowance never gets
into an image. -/

namespace BootImage.Listing

def statedNumber? (value : Line) : Option ℕ :=
  match value.dropWhile (· ≠ ';') with
  | ';' :: tail => if isComment tail then Text.number? 10 (value.takeWhile (· ≠ ';')) else none
  | _ => none

/-- The number that a line declares as the size of a package. -/
def declared? (package : Package) (line : Line) : Option ℕ :=
  if sizeFront package <+: line then statedNumber? (line.drop (sizeFront package).length) else none

/-- The size that the last declaration gives. -/
def size? (package : Package) (text : String) : Option ℕ :=
  ((lines text).filterMap (declared? package)).getLast?

theorem statedNumber?_decimal (n : ℕ) {tail : Line} (h : isComment tail) :
    statedNumber? ((Text.decimal 1 n).toList ++ ';' :: tail) = some n := by
  have hdigits : ∀ c ∈ (Text.decimal 1 n).toList, decide (c ≠ ';') = true := by
    intro c hc
    apply decide_eq_true
    rintro rfl
    exact Text.not_mem_decimal (by decide) 1 n hc
  rw [statedNumber?, List.dropWhile_append_of_pos hdigits, List.takeWhile_append_of_pos hdigits]
  simp [h, Text.number?_decimal]

theorem declared?_sizeLine (package : Package) (size : ℕ) :
    declared? package (sizeLine package size) = some size := by
  have hfront : sizeFront package <+: sizeLine package size := List.prefix_append _ _
  rw [declared?, if_pos hfront, sizeLine, List.drop_left]
  exact statedNumber?_decimal size (by decide : isComment " -- bytes".toList)

theorem declared?_of_not_front {package : Package} {line : Line}
    (h : ¬ sizeFront package <+: line) : declared? package line = none := by
  rw [declared?, if_neg h]

theorem newline_not_mem_sizeLine {package : Package} (h : '\n' ∉ package.stem.toList)
    (size : ℕ) : '\n' ∉ sizeLine package size := by
  have hdigits : '\n' ∉ (Text.decimal 1 size).toList := Text.not_mem_decimal (by decide) 1 size
  simp [sizeLine, sizeFront, h, hdigits]

def Undeclared (package : Package) (line : Line) : Prop :=
  '\n' ∉ line ∧ ¬ sizeFront package <+: line

instance (package : Package) (line : Line) : Decidable (Undeclared package line) :=
  inferInstanceAs (Decidable (_ ∧ _))

theorem Undeclaring.undeclared {line : Line} (h : Undeclaring line) (package : Package) :
    Undeclared package line := by
  have hfront : sizeFront package = 'c' :: (sizeFront package).tail := by simp [sizeFront]
  refine ⟨h.1, ?_⟩
  rw [hfront]
  rintro ⟨rest, rfl⟩
  exact h.2 rfl

/-- A size is read back from behind any text, if no later line declares another. -/
theorem size?_of_lines {package : Package} {text : String} {before : List Char} {size : ℕ}
    {after : List Line}
    (htext : text.toList = before ++ '\n' :: unlines (sizeLine package size :: after))
    (hstem : '\n' ∉ package.stem.toList)
    (hafter : ∀ line ∈ after, Undeclared package line) :
    size? package text = some size := by
  have hclean : ∀ line ∈ sizeLine package size :: after, '\n' ∉ line := by
    intro line h
    rcases List.mem_cons.mp h with rfl | h
    · exact newline_not_mem_sizeLine hstem size
    · exact (hafter line h).1
  have hsilent : (after ++ [[]]).filterMap (declared? package) = [] := by
    rw [List.filterMap_eq_nil_iff]
    intro line h
    rcases List.mem_append.mp h with h | h
    · exact declared?_of_not_front (hafter line h).2
    · rw [List.mem_singleton.mp h]
      have hempty : Undeclaring [] := by decide
      exact declared?_of_not_front (hempty.undeclared package).2
  rw [size?, lines, htext, List.splitOn_append_cons_self, splitOn_unlines hclean, List.cons_append,
    List.filterMap_append, List.filterMap_cons_some (declared?_sizeLine package size), hsilent,
    List.getLast?_concat]

theorem size?_package {package : Package} (hstem : '\n' ∉ package.stem.toList)
    (htable : Undeclared package (opening (imageTable package))) (source : String)
    (built : DateTime) (size : ℕ) {ws : List UInt32} (hws : ws ≠ []) {rest : String}
    {after : List Line} (hrest : rest.toList = unlines after)
    (hafter : ∀ line ∈ after, Undeclared package line) :
    size? package (vhdlOpening package source built size ++ vhdlTable ws ++ rest) = some size := by
  obtain ⟨init, last, rfl⟩ := (List.eq_nil_or_concat' ws).resolve_left hws
  obtain ⟨before, hopening⟩ := toList_vhdlOpening package source built size
  have htext : (vhdlOpening package source built size ++ vhdlTable (init ++ [last]) ++
      rest).toList = before ++ '\n' :: unlines (sizeLine package size ::
        opening (imageTable package) ::
          (tableLines (init.map UInt32.toNat) last.toNat [] ++ closing :: after)) := by
    rw [String.toList_append, String.toList_append, hopening, toList_vhdlTable, hrest]
    simp only [unlines_cons, unlines_append, unlines_nil, List.append_assoc, List.cons_append,
      List.nil_append]
  apply size?_of_lines htext hstem
  intro line h
  rw [List.mem_cons, List.mem_append, List.mem_cons] at h
  rcases h with rfl | h | rfl | h
  · exact htable
  · exact (undeclaring_tableLines (by decide) line h).undeclared package
  · exact Undeclaring.undeclared (by decide) package
  · exact hafter line h

variable (source : String) (built : DateTime) (size : ℕ) {ws : List UInt32}

theorem size?_application (hws : ws ≠ []) :
    size? .application (vhdlApplication source built size ws) = some size := by
  rw [vhdlApplication]
  exact size?_package (by decide) (by decide) source built size hws
    (toList_vhdlClosing .application) fun line h =>
      (undeclaring_closingLines (by decide) line h).undeclared _

theorem size?_bootloader (hws : ws ≠ []) (signature : List UInt32) :
    size? .bootloader (vhdlBootloader source built size ws signature) = some size := by
  rw [vhdlBootloader, String.append_assoc]
  apply size?_package (by decide) (by decide) source built size hws
    (toList_secureBoot_closing signature ws.length)
  intro line h
  rcases List.mem_cons.mp h with rfl | h
  · decide
  · exact (undeclaring_secureBootLines _ _ line h).undeclared _

end BootImage.Listing

namespace BootImage

namespace Image

variable {image : Image}

theorem length_numbers (image : Image) : image.numbers.length = image.words.length :=
  List.length_map _

theorem length_words (image : Image) : image.words.length = (image.payload.length + 3) / 4 := by
  have h := Word.length_split image.payload
  rw [words]
  omega

theorem application_sizes (h : image.payload ≠ []) :
    ∃ text, image.render .appVhd = some (.text text) ∧
      Listing.size? .application text = some image.payload.length ∧
      Listing.table? (Listing.imageTable .application) text = some image.numbers := by
  have hwords := words_ne_nil h
  exact ⟨_, rfl, Listing.size?_application _ _ _ hwords, Listing.table?_application _ _ _ hwords⟩

theorem bootloader_sizes {signature : Bytes} (h : image.payload ≠ [])
    (hsignature : signature.length = 256) :
    Listing.size? .bootloader (image.bootloader signature) = some (image.payload.length + 260) ∧
    Listing.table? (Listing.imageTable .bootloader) (image.bootloader signature) =
      some image.numbers ∧
    ∃ entries, entries.length = 64 ∧
      Listing.table? Listing.secureBootTable (image.bootloader signature) =
        some (entries ++ [image.words.length]) := by
  have hwords := words_ne_nil h
  have hentries : ((Word.split signature).map UInt32.toNat).length = 64 := by
    rw [List.length_map]
    exact Listing.length_split_signature hsignature
  exact ⟨Listing.size?_bootloader _ _ _ hwords _, Listing.table?_image _ _ _ hwords _,
    _, hentries, Listing.table?_secureBoot _ _ _ _ _⟩

theorem executable_sizes {output : Output} (h : image.render .appBin = some output) :
    ∃ file header, output = .binary file ∧
      Header.ofBytes? file = some (header, Word.join image.words) ∧
      header.size = 4 * image.words.length ∧ file.length = 12 + 4 * image.words.length := by
  have hsize : 4 * image.words.length < 2 ^ 32 := by
    by_contra hlarge
    rw [render_appBin_eq_none hlarge] at h
    cases h
  obtain ⟨bytes, hbytes, hrender⟩ := render_appBin hsize
  rw [h, Option.some_inj] at hrender
  have hfits := Header.ofWords_fits hsize
  refine ⟨_, _, hrender, Header.ofBytes?_append hfits hbytes _, rfl, ?_⟩
  have hlen : bytes.length = 12 := by
    rw [Header.toBytes?_of_fits hfits, Option.some_inj] at hbytes
    rw [← hbytes, List.length_append, List.length_append, Bytes.length_ofNatLE,
      Bytes.length_ofNatLE, Bytes.length_ofNatLE]
  rw [List.length_append, hlen, Word.length_join, Word.size]

end Image

namespace Session

variable {start s : Session} {past : List Entry}

/-- The outputs that the session makes from here state the sizes of a payload of this many bytes and
words, and have the entries that they state. -/
structure SizesAgree (s : Session) (length words : ℕ) : Prop where
  rounded : words = (length + 3) / 4
  application : ∀ reply signer fixed, ∃ text entries,
    s.Creates reply .appVhd signer fixed (.text text) ∧
    Listing.size? .application text = some length ∧
    Listing.table? (Listing.imageTable .application) text = some entries ∧
    entries.length = words
  bootloader : ∀ reply signer fixed output, s.Creates reply .bldVhd signer fixed output →
    ∃ text size code signature, output = .text text ∧
      Listing.size? .bootloader text = some size ∧ size = length + 260 ∧
      Listing.table? (Listing.imageTable .bootloader) text = some code ∧ code.length = words ∧
      Listing.table? Listing.secureBootTable text = some (signature ++ [words]) ∧
      signature.length = 64 ∧
      (size + 3) / 4 = code.length + (signature ++ [words]).length
  executable : ∀ reply signer fixed output, s.Creates reply .appBin signer fixed output →
    ∃ file header payload, output = .binary file ∧
      Header.ofBytes? file = some (header, payload) ∧ header.size = 4 * words ∧
      file.length = 12 + 4 * words

theorem sizesAgree_payload (h : s.image.payload ≠ []) :
    s.SizesAgree s.image.payload.length s.image.words.length where
  rounded := s.image.length_words
  application := by
    intro reply signer fixed
    obtain ⟨text, hrender, hsize, htable⟩ := Image.application_sizes h
    have hcreates : s.Creates reply .appVhd signer fixed (.text text) :=
      (creates_unsigned (by decide)).mpr hrender
    exact ⟨text, _, hcreates, hsize, htable, s.image.length_numbers⟩
  bootloader := by
    intro reply signer fixed output hcreates
    obtain ⟨signature, hsignature⟩ := succeeds_bldVhd.mp ⟨_, hcreates⟩
    cases (next_bldVhd_ok hsignature).2.symm.trans hcreates
    obtain ⟨hsize, hcode, entries, hlen, htable⟩ :=
      Image.bootloader_sizes h (Image.length_of_signatureFor hsignature)
    refine ⟨_, _, _, entries, rfl, hsize, rfl, hcode, s.image.length_numbers, htable, hlen, ?_⟩
    have hwords := s.image.length_words
    rw [s.image.length_numbers, List.length_append, hlen, List.length_singleton]
    omega
  executable := by
    intro reply signer fixed output hcreates
    obtain ⟨file, header, hfile, hparts, hsize, hlen⟩ :=
      Image.executable_sizes ((creates_unsigned (by decide)).mp hcreates)
    exact ⟨file, header, _, hfile, hparts, hsize, hlen⟩

/-- Whatever was signed, rendered and saved before, sizes agree with the payload. -/
theorem sizes_agree (h : History start past s) (hpayload : start.image.payload ≠ [])
    (hloads : ∀ e ∈ past, ¬ e.Loads) :
    s.SizesAgree start.image.payload.length start.image.words.length := by
  have hsame := h.payload_eq hloads
  rw [Image.words, ← hsame]
  rw [← hsame] at hpayload
  exact sizesAgree_payload hpayload

def fixedSigning : Entry := ⟨fiveBytes, .absent, .sign none (some (Bytes.zeros 256))⟩

def fixedBootloader : Entry :=
  ⟨fixedSigning.after, .absent, .create "bld_vhd" none (some (Bytes.zeros 256))⟩

theorem five_bytes_sizes :
    History fiveBytes [fixedBootloader, fixedSigning] fixedBootloader.after ∧
    fiveBytes.image.payload ≠ [] ∧
    (∀ e ∈ [fixedBootloader, fixedSigning], ¬ e.Loads) ∧
    fixedBootloader.after.SizesAgree 5 2 ∧
    ∃ output,
      fixedBootloader.after.Creates .absent .bldVhd none (some (Bytes.zeros 256)) output := by
  have hsigning : History fiveBytes [fixedSigning] fixedSigning.after := .entry .new
  have hbefore : fixedBootloader.before = fixedSigning.after := by rw [fixedBootloader]
  rw [← hbefore] at hsigning
  have hhistory := hsigning.entry
  have hpayload : fiveBytes.image.payload ≠ [] := by decide
  have hloads : ∀ e ∈ [fixedBootloader, fixedSigning], ¬ e.Loads := by
    rintro e he ⟨_, path, reportedSize, hstep⟩
    simp only [List.mem_cons, List.not_mem_nil, or_false] at he
    rcases he with rfl | rfl <;> cases hstep
  have hlength : fiveBytes.image.payload.length = 5 := by decide
  have hwords : fiveBytes.image.words.length = 2 := by decide
  have hagree := sizes_agree hhistory hpayload hloads
  rw [hlength, hwords] at hagree
  have hafter : fixedBootloader.after.image.payload ≠ [] := by
    rw [hhistory.payload_eq hloads]
    exact hpayload
  have hcreates := (formats_carry_image fixedBootloader.after hafter).bootloader .absent none
    (Bytes.zeros 256) List.length_replicate
  exact ⟨hhistory, hpayload, hloads, hagree, hcreates⟩

end Session

end BootImage
