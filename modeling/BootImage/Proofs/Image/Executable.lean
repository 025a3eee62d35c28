import BootImage.Proofs.Command.Inspecting
import BootImage.Proofs.Image.Formats

/-! Executables with a header, and what an inspection accepts. The writer fills the last word,
counts the words and negates their sum; the reader takes whole words and adds them up again. A
payload has one file that passes. A tail of one to three bytes is counted by the size and left out
by the checksum, so a file with one may pass as well, though no image is rendered that way. A file
that passes is fixed by its payload, so no change of one word, no cut and no continuation passes. -/

namespace BootImage

theorem Word.total_numbers (ws : List UInt32) :
    Word.total (Header.numbers ws) = (ws.map UInt32.toNat).sum := by
  induction ws with
  | nil => rfl
  | cons w rest ih =>
    rw [Header.numbers, Word.total] at ih ⊢
    rw [List.map_cons, List.foldr_cons, ih, List.map_cons, List.sum_cons]
    push_cast
    rfl

namespace Image

/-- A file that an inspection reads as an image: a header for the size and the sum of its words, and
the words. However the inspection is asked for, it finds nothing wrong. -/
structure Accepts (image : Image) (file : Bytes) : Prop where
  header : ∃ header, Header.ofBytes? file = some (header, Word.filled image.payload) ∧
    header.signature = 0x4788cafe ∧
    header.size = (image.payload.length + 3) / 4 * 4 ∧
    0 ≤ header.checksum ∧ header.checksum < 2 ^ 32 ∧
    ((image.words.map UInt32.toNat).sum + header.checksum) % 2 ^ 32 = 0 ∧
    header.check (Word.filled image.payload) = ⟨true, true, true⟩
  inspected : ∀ files path, files.read path = .ok file →
    ∀ host, ∀ flags ∈ Command.silenceArguments, ∀ target,
      target = ["--", path] ∨ target = [path] ∧ path.toList.head? ≠ some '-' →
      (Command.run host files ("dumpinfo" :: (flags ++ target))).exitCode = 0
  reported : ∀ files path outfile header payload after, files.read path = .ok file →
    Header.ofBytes? file = some (header, payload) →
    files.write outfile (Bytes.ofText
      (Inspection.yaml header payload (header.check payload))) = .ok after →
    ∀ host, ∀ flags ∈ Command.silenceArguments, ∀ target,
      target = ["--", path] ∨ target = [path] ∧ path.toList.head? ≠ some '-' →
      (Command.run host files ("dumpinfo" :: "-o" :: outfile :: (flags ++ target))).exitCode = 0

theorem accepts_executable {image : Image} {header : Bytes}
    (hsize : 4 * image.words.length < 2 ^ 32)
    (hheader : (Header.ofWords image.words).toBytes? = some header) :
    image.Accepts (header ++ Word.join image.words) := by
  have hparts : Header.ofBytes? (header ++ Word.join image.words) =
      some (Header.ofWords image.words, Word.filled image.payload) := by
    rw [Header.ofBytes?_append (Header.ofWords_fits hsize) hheader, words, Word.join_split_filled]
  have hchecks : (Header.ofWords image.words).check (Word.filled image.payload) =
      ⟨true, true, true⟩ := by
    rw [← Word.join_split_filled]
    exact Header.check_ofWords image.words
  have hall : ((Header.ofWords image.words).check (Word.filled image.payload)).all = true := by
    rw [hchecks]
    rfl
  constructor
  · refine ⟨_, hparts, rfl, ?_, ?_, ?_, ?_, hchecks⟩
    · have hlen := Word.length_split image.payload
      simp only [Header.ofWords, Word.size, words]
      omega
    · exact (Header.ofWords_fits hsize).checksum.1
    · exact (Header.ofWords_fits hsize).checksum.2
    · rw [← Word.total_numbers]
      exact Header.total_add_sumComplement _
  · intro files path hread host flags hflags target htarget
    have hroom : Command.HasRoom files (Header.ofWords image.words)
        (Word.filled image.payload) none := by
      intro report hreport
      cases hreport
    exact Command.exitCode_dumpinfo hread hparts hall hroom hflags host htarget
  · intro files path outfile other payload after hread hother hwrite host flags hflags target
      htarget
    rw [hparts] at hother
    cases hother
    have hroom : Command.HasRoom files (Header.ofWords image.words)
        (Word.filled image.payload) (some outfile) := by
      intro report hreport
      cases hreport
      exact ⟨after, hwrite⟩
    exact Command.exitCode_dumpinfo hread hparts hall hroom hflags host htarget

end Image

namespace Session

/-- An executable is written exactly when its size fits the header, and what is written is accepted.
Otherwise nothing changes. -/
theorem executable_accepted (s : Session) (reply : ProgramReply) (signer : Option Signer)
    (fixed : Option Bytes) :
    ((∃ output, s.Creates reply .appBin signer fixed output) ↔
      (s.image.payload.length + 3) / 4 * 4 < 2 ^ 32) ∧
    (¬ (s.image.payload.length + 3) / 4 * 4 < 2 ^ 32 →
      s.next reply (.create "app_bin" signer fixed) =
        (s, { outcome := .error (.create .sizeOverflow) })) ∧
    ∀ output, s.Creates reply .appBin signer fixed output →
      ∃ file, output = .binary file ∧ s.image.Accepts file ∧
        (s.next reply (.create "app_bin" signer fixed)).1.image =
          { s.image with output := some (.binary file) } := by
  have hlen : 4 * s.image.words.length = (s.image.payload.length + 3) / 4 * 4 :=
    Word.length_split s.image.payload
  have hunsigned : Format.appBin ≠ .bldVhd := by decide
  rw [← hlen]
  by_cases hsize : 4 * s.image.words.length < 2 ^ 32
  · obtain ⟨header, hheader, hrender⟩ := Image.render_appBin hsize
    refine ⟨iff_of_true ⟨_, (creates_unsigned hunsigned).mpr hrender⟩ hsize,
      fun hlarge => absurd hsize hlarge, fun output hcreates => ?_⟩
    have hsame := (creates_unsigned hunsigned).mp hcreates
    rw [hrender, Option.some_inj] at hsame
    refine ⟨_, hsame.symm, Image.accepts_executable hsize hheader, ?_⟩
    have hnext := next_unsigned_of_render hunsigned hrender reply signer fixed
    rw [Format.name] at hnext
    rw [hnext]
  · have hrender := Image.render_appBin_eq_none hsize
    have hnext := next_unsigned_of_render_eq_none hunsigned hrender reply signer fixed
    rw [Format.name] at hnext
    refine ⟨iff_of_false ?_ hsize, fun _ => hnext, ?_⟩
    · rintro ⟨output, hcreates⟩
      rw [creates_unsigned hunsigned, hrender] at hcreates
      cases hcreates
    · intro output hcreates
      rw [creates_unsigned hunsigned, hrender] at hcreates
      cases hcreates

end Session

namespace Header

variable {file payload : Bytes} {header : Header}

/-- The file that passes with a payload: the magic number, the size, the checksum of the whole
words, and the payload. -/
def passing (payload : Bytes) : Bytes :=
  Bytes.ofNatLE 4 magic ++ Bytes.ofNatLE 4 payload.length ++
    Bytes.ofNatLE 4 (Word.sumComplement (numbers (wholeWords payload))) ++ payload

theorem length_passing (payload : Bytes) : (passing payload).length = 12 + payload.length := by
  simp only [passing, List.length_append, Bytes.length_ofNatLE]

theorem exists_fields (h : 12 ≤ file.length) :
    ∃ a b c payload : Bytes, a.length = 4 ∧ b.length = 4 ∧ c.length = 4 ∧
      file = a ++ b ++ c ++ payload := by
  have hsplit (bs : Bytes) : bs.take 4 ++ bs.drop 4 = bs := List.take_append_drop 4 bs
  refine ⟨file.take 4, (file.drop 4).take 4, ((file.drop 4).drop 4).take 4,
    ((file.drop 4).drop 4).drop 4, ?_, ?_, ?_, ?_⟩
  · rw [List.length_take]
    omega
  · rw [List.length_take, List.length_drop]
    omega
  · rw [List.length_take, List.length_drop, List.length_drop]
    omega
  · rw [List.append_assoc, hsplit, List.append_assoc, hsplit, hsplit]

theorem length_of_ofBytes? (h : ofBytes? file = some (header, payload)) : 12 ≤ file.length := by
  rw [ofBytes?] at h
  split at h
  · cases h
  · next hlong => exact Nat.le_of_not_lt hlong

theorem check_all_iff : (header.check payload).all = true ↔
    header.signature = magic ∧ header.size = payload.length ∧
      (Word.total (numbers (wholeWords payload)) + header.checksum) % Word.modulus = 0 := by
  simp [check, Checks.all, and_assoc]

theorem toNatLE_eq_iff {bs : Bytes} (hbs : bs.length = 4) {n : ℕ} (hn : n < 2 ^ 32) :
    Bytes.toNatLE bs = n ↔ bs = Bytes.ofNatLE 4 n := by
  constructor
  · rintro rfl
    rw [← hbs, Bytes.ofNatLE_toNatLE]
  · rintro rfl
    rw [Bytes.toNatLE_ofNatLE]
    omega

theorem eq_sumComplement_iff {ns : List ℤ} {n : ℕ} (hn : n < 2 ^ 32) :
    (Word.total ns + n) % Word.modulus = 0 ↔ n = Word.sumComplement ns := by
  simp only [Word.sumComplement, Word.modulus]
  omega

theorem check_all_iff_passing (h : ofBytes? file = some (header, payload)) :
    (header.check payload).all = true ↔ payload.length < 2 ^ 32 ∧ file = passing payload := by
  obtain ⟨a, b, c, payload', ha, hb, hc, rfl⟩ := exists_fields (length_of_ofBytes? h)
  rw [ofBytes?_fields ha hb hc, Option.some_inj, Prod.mk.injEq] at h
  obtain ⟨rfl, rfl⟩ := h
  have hsmall (bs : Bytes) (hbs : bs.length = 4) : Bytes.toNatLE bs < 2 ^ 32 := by
    have hlt := Bytes.toNatLE_lt bs
    rw [hbs] at hlt
    exact hlt
  have hmagic : magic < 2 ^ 32 := by decide
  have hsum : Word.sumComplement (numbers (wholeWords payload')) < 2 ^ 32 :=
    Word.sumComplement_lt _
  simp only [check_all_iff, Int.natCast_inj]
  rw [eq_sumComplement_iff (hsmall c hc), toNatLE_eq_iff ha hmagic, toNatLE_eq_iff hc hsum]
  constructor
  · rintro ⟨rfl, hsize, rfl⟩
    have hlen : payload'.length < 2 ^ 32 := hsize ▸ hsmall b hb
    rw [toNatLE_eq_iff hb hlen] at hsize
    rw [hsize, passing]
    exact ⟨hlen, rfl⟩
  · rintro ⟨hlen, hfile⟩
    rw [toNatLE_eq_iff hb hlen]
    rw [passing, List.append_left_inj] at hfile
    obtain ⟨hfront, rfl⟩ := List.append_inj' hfile (by rw [hc, Bytes.length_ofNatLE])
    obtain ⟨rfl, rfl⟩ := List.append_inj hfront (by rw [ha, Bytes.length_ofNatLE])
    exact ⟨rfl, rfl, rfl⟩

theorem exists_ofBytes?_passing (payload : Bytes) :
    ∃ header, ofBytes? (passing payload) = some (header, payload) :=
  ⟨_, ofBytes?_fields (Bytes.length_ofNatLE 4 _) (Bytes.length_ofNatLE 4 _)
    (Bytes.length_ofNatLE 4 _) payload⟩

end Header

namespace Image

theorem render_appBin_iff_passing {image : Image} {file : Bytes} :
    image.render .appBin = some (.binary file) ↔
      (Word.filled image.payload).length < 2 ^ 32 ∧
        file = Header.passing (Word.filled image.payload) := by
  have hlen : (Word.filled image.payload).length = 4 * image.words.length := by
    rw [← Word.join_split_filled, Word.length_join, Word.size, words]
  rw [hlen]
  by_cases hsize : 4 * image.words.length < 2 ^ 32
  · obtain ⟨header, hheader, hrender⟩ := render_appBin hsize
    rw [Header.toBytes?_of_fits (Header.ofWords_fits hsize), Option.some_inj] at hheader
    have hfile : header ++ Word.join image.words =
        Header.passing (Word.filled image.payload) := by
      rw [Header.passing, hlen, ← hheader, ← Word.join_split_filled, Header.wholeWords_join, words]
      congr 3
    rw [hrender, hfile, Option.some_inj, Output.binary.injEq]
    exact ⟨fun h => ⟨hsize, h.symm⟩, fun h => h.2.symm⟩
  · rw [render_appBin_eq_none hsize]
    exact iff_of_false (fun h => by cases h) fun h => hsize h.1

end Image

namespace Session

/-- With whole words after the header, the checks tell the executables from all other files: what
passes is the executable of every image with that payload. With or without whole words, what passes
is fixed by the payload. -/
theorem checks_recognize_executables {file : Bytes} (h : 12 ≤ file.length) :
    ∃ header payload, Header.ofBytes? file = some (header, payload) ∧
      ((header.check payload).all = true → 4 ∣ payload.length →
        ∀ (s : Session) (reply : ProgramReply) (signer : Option Signer) (fixed : Option Bytes),
          s.image.payload = payload → s.Creates reply .appBin signer fixed (.binary file)) ∧
      (∀ (s : Session) (reply : ProgramReply) (signer : Option Signer) (fixed : Option Bytes),
        s.Creates reply .appBin signer fixed (.binary file) →
          (header.check payload).all = true ∧ 4 ∣ payload.length) ∧
      ((header.check payload).all = true ↔
        payload.length < 2 ^ 32 ∧ file = Header.passing payload) := by
  have hunsigned : Format.appBin ≠ .bldVhd := by decide
  obtain ⟨a, b, c, payload, ha, hb, hc, rfl⟩ := Header.exists_fields h
  have hparts := Header.ofBytes?_fields ha hb hc payload
  have hpassing := Header.check_all_iff_passing hparts
  refine ⟨_, payload, hparts, ?_, ?_, hpassing⟩
  · intro hall hwhole s reply signer fixed hpayload
    rw [creates_unsigned hunsigned, Image.render_appBin_iff_passing, hpayload,
      Word.filled_of_dvd hwhole]
    exact hpassing.mp hall
  · intro s reply signer fixed hcreates
    obtain ⟨hsize, hfile⟩ :=
      Image.render_appBin_iff_passing.mp ((creates_unsigned hunsigned).mp hcreates)
    obtain ⟨header, hread⟩ := Header.exists_ofBytes?_passing (Word.filled s.image.payload)
    rw [← hfile, hparts, Option.some_inj, Prod.mk.injEq] at hread
    obtain ⟨-, rfl⟩ := hread
    exact ⟨hpassing.mpr ⟨hsize, hfile⟩, Word.dvd_length_filled _⟩

def oneWordFile : Bytes :=
  [0xfe, 0xca, 0x88, 0x47, 4, 0, 0, 0, 0xff, 0xff, 0xff, 0xff, 1, 0, 0, 0]

def oneWord : Session where
  image := { built := ⟨2024, 1, 2, 3, 4, 5⟩, source := some "a.bin", payload := [1, 0, 0, 0] }
  files := {}

theorem one_word_recognized :
    12 ≤ oneWordFile.length ∧
    oneWord.Creates .absent .appBin none none (.binary oneWordFile) := by
  have hlong : 12 ≤ oneWordFile.length := by decide
  obtain ⟨header, payload, hparts, hcreates, -, -⟩ := checks_recognize_executables hlong
  have hread : Header.ofBytes? oneWordFile = some (⟨0x4788cafe, 4, 0xffffffff⟩, [1, 0, 0, 0]) := by
    decide
  rw [hread, Option.some_inj, Prod.mk.injEq] at hparts
  obtain ⟨rfl, rfl⟩ := hparts
  exact ⟨hlong, hcreates (by decide) (by decide) oneWord .absent none none rfl⟩

def oneByteFile : Bytes := [0xfe, 0xca, 0x88, 0x47, 1, 0, 0, 0, 0, 0, 0, 0, 0x61]

theorem one_byte_passes_unrendered :
    12 ≤ oneByteFile.length ∧
    (∃ header payload, Header.ofBytes? oneByteFile = some (header, payload) ∧
      header.check payload = ⟨true, true, true⟩) ∧
    ∀ (s : Session) (reply : ProgramReply) (signer : Option Signer) (fixed : Option Bytes),
      ¬ s.Creates reply .appBin signer fixed (.binary oneByteFile) := by
  refine ⟨by decide, ⟨⟨0x4788cafe, 1, 0⟩, [0x61], by decide, by decide⟩, ?_⟩
  intro s reply signer fixed hcreates
  have hrender := (creates_unsigned (by decide)).mp hcreates
  obtain ⟨-, hfile⟩ := Image.render_appBin_iff_passing.mp hrender
  have hlen := congrArg List.length hfile
  have hwhole := Word.dvd_length_filled s.image.payload
  rw [Header.length_passing, oneByteFile] at hlen
  simp only [List.length_cons, List.length_nil] at hlen
  omega

end Session

namespace Word

theorem total_append (ms ns : List ℤ) : total (ms ++ ns) = total ms + total ns := by
  induction ms with
  | nil => rw [List.nil_append, total, total, List.foldr_nil, Int.zero_add]
  | cons n rest ih =>
    rw [total, total] at ih ⊢
    rw [List.cons_append, List.foldr_cons, List.foldr_cons, ih, Int.add_assoc]

theorem eq_of_total_word {xs ys : Bytes} (hlen : xs.length = ys.length)
    (hword : xs.length = 0 ∨ xs.length = 4)
    (h : (total (Header.numbers (split xs)) - total (Header.numbers (split ys))) % 2 ^ 32 = 0) :
    xs = ys := by
  rcases hword with hnone | hone
  · have hother : ys.length = 0 := hlen ▸ hnone
    rw [List.length_eq_zero_iff.mp hnone, List.length_eq_zero_iff.mp hother]
  · obtain ⟨v, hv⟩ : ∃ v, split xs = [v] := by
      obtain ⟨a, b, c, d, rfl⟩ := List.length_eq_four.mp hone
      exact ⟨_, rfl⟩
    obtain ⟨w, hw⟩ : ∃ w, split ys = [w] := by
      obtain ⟨a, b, c, d, rfl⟩ := List.length_eq_four.mp (hlen ▸ hone)
      exact ⟨_, rfl⟩
    have hsame : v = w := by
      have hvlt := v.toNat_lt
      have hwlt := w.toNat_lt
      simp only [hv, hw, Header.numbers, total, List.map_cons, List.map_nil, List.foldr_cons,
        List.foldr_nil] at h
      apply UInt32.toNat_inj.mp
      omega
    have hx : 4 ∣ xs.length := Dvd.intro 1 hone.symm
    have hy : 4 ∣ ys.length := Dvd.intro 1 (hlen ▸ hone).symm
    rw [← join_split_of_dvd hx, ← join_split_of_dvd hy, hv, hw, hsame]

end Word

/-- Two byte strings that differ in no place outside one word. -/
def SameOutside (i : ℕ) (xs ys : Bytes) : Prop := ∀ j, xs[j]? ≠ ys[j]? → j / 4 = i

section

variable {i k : ℕ} {xs ys : Bytes}

theorem SameOutside.take (h : SameOutside i xs ys) (hk : k ≤ 4 * i) : xs.take k = ys.take k := by
  apply List.ext_getElem?
  intro j
  by_cases hj : j < k
  · rw [List.getElem?_take_of_lt hj, List.getElem?_take_of_lt hj]
    by_contra hne
    have hword := h j hne
    omega
  · rw [List.getElem?_take_eq_none (by omega), List.getElem?_take_eq_none (by omega)]

theorem SameOutside.drop (h : SameOutside i xs ys) (hk : 4 * i + 4 ≤ k) :
    xs.drop k = ys.drop k := by
  apply List.ext_getElem?
  intro j
  rw [List.getElem?_drop, List.getElem?_drop]
  by_contra hne
  have hword := h (k + j) hne
  omega

theorem SameOutside.drop_words (h : SameOutside (k + i) xs ys) :
    SameOutside i (xs.drop (4 * k)) (ys.drop (4 * k)) := by
  intro j hne
  rw [List.getElem?_drop, List.getElem?_drop] at hne
  have hword := h (4 * k + j) hne
  omega

theorem total_split_at (hwhole : 4 ∣ xs.length) (i : ℕ) :
    Word.total (Header.numbers (Word.split xs)) =
      Word.total (Header.numbers (Word.split (xs.take (4 * i)))) +
      (Word.total (Header.numbers (Word.split ((xs.drop (4 * i)).take 4))) +
        Word.total (Header.numbers (Word.split (xs.drop (4 * i + 4))))) := by
  have hfront : 4 ∣ (xs.take (4 * i)).length := by
    rw [List.length_take]
    omega
  have hword : 4 ∣ ((xs.drop (4 * i)).take 4).length := by
    rw [List.length_take, List.length_drop]
    omega
  have hparts : xs = xs.take (4 * i) ++ ((xs.drop (4 * i)).take 4 ++ xs.drop (4 * i + 4)) := by
    rw [← List.drop_drop, List.take_append_drop, List.take_append_drop]
  conv_lhs => rw [hparts, Word.split_append hfront, Word.split_append hword]
  simp only [Header.numbers, List.map_append, Word.total_append]

theorem SameOutside.eq_of_sumComplement (h : SameOutside i xs ys) (hlen : xs.length = ys.length)
    (hwhole : 4 ∣ xs.length)
    (hsum : Word.sumComplement (Header.numbers (Word.split xs)) =
      Word.sumComplement (Header.numbers (Word.split ys))) : xs = ys := by
  have hfront : xs.take (4 * i) = ys.take (4 * i) := h.take le_rfl
  have hback : xs.drop (4 * i + 4) = ys.drop (4 * i + 4) := h.drop le_rfl
  have hword : (xs.drop (4 * i)).take 4 = (ys.drop (4 * i)).take 4 := by
    apply Word.eq_of_total_word
    · rw [List.length_take, List.length_take, List.length_drop, List.length_drop, hlen]
    · rw [List.length_take, List.length_drop]
      omega
    · have hx := total_split_at hwhole i
      have hy := total_split_at (hlen ▸ hwhole) i
      rw [hfront, hback] at hx
      simp only [Word.sumComplement, Word.modulus] at hsum
      omega
  rw [← List.take_append_drop (4 * i) xs, ← List.take_append_drop (4 * i) ys, hfront,
    ← List.take_append_drop 4 (xs.drop (4 * i)), ← List.take_append_drop 4 (ys.drop (4 * i)),
    hword, List.drop_drop, List.drop_drop, hback]

end

/-- What may happen to a file: a change inside one aligned word, the loss of its end, or something
added to it. -/
inductive Damaged (file : Bytes) : Bytes → Prop where
  | word {other : Bytes} (i : ℕ) (length : other.length = file.length) (changed : other ≠ file)
      (same : SameOutside i other file) : Damaged file other
  | cut {other : Bytes} (changed : other ≠ file) (part : other <+: file) : Damaged file other
  | continued {other : Bytes} (changed : other ≠ file) (part : file <+: other) : Damaged file other

namespace Header

variable {payload payload' : Bytes}

theorem take_passing (payload : Bytes) :
    (passing payload).take 12 = Bytes.ofNatLE 4 magic ++ Bytes.ofNatLE 4 payload.length ++
      Bytes.ofNatLE 4 (Word.sumComplement (numbers (wholeWords payload))) := by
  apply List.take_left'
  simp only [List.length_append, Bytes.length_ofNatLE]

theorem drop_passing (payload : Bytes) : (passing payload).drop 12 = payload := by
  apply List.drop_left'
  simp only [List.length_append, Bytes.length_ofNatLE]

theorem ofNatLE_inj {m n : ℕ} (hm : m < 2 ^ 32) (hn : n < 2 ^ 32)
    (h : Bytes.ofNatLE 4 m = Bytes.ofNatLE 4 n) : m = n := by
  have hvalue := congrArg Bytes.toNatLE h
  rw [Bytes.toNatLE_ofNatLE, Bytes.toNatLE_ofNatLE] at hvalue
  omega

theorem eq_of_take_passing (h : payload.length < 2 ^ 32) (h' : payload'.length < 2 ^ 32)
    (hfront : (passing payload).take 12 = (passing payload').take 12) :
    payload.length = payload'.length ∧
      Word.sumComplement (numbers (wholeWords payload)) =
        Word.sumComplement (numbers (wholeWords payload')) := by
  rw [take_passing, take_passing] at hfront
  obtain ⟨hfields, hsum⟩ := List.append_inj' hfront
    (by rw [Bytes.length_ofNatLE, Bytes.length_ofNatLE])
  exact ⟨ofNatLE_inj h h' (List.append_cancel_left hfields),
    ofNatLE_inj (Word.sumComplement_lt _) (Word.sumComplement_lt _) hsum⟩

theorem wholeWords_of_dvd (h : 4 ∣ payload.length) : wholeWords payload = Word.split payload := by
  rw [wholeWords, Nat.div_mul_cancel h, List.take_length]

/-- A word that changed in a passing file is in its header or in its payload; a header that was
changed alone has no other payload to pass with, and a payload no other sum. -/
theorem passing_eq_of_sameOutside {i : ℕ} (hwhole : 4 ∣ payload.length)
    (h : payload.length < 2 ^ 32) (hlen : payload'.length = payload.length)
    (hsame : SameOutside i (passing payload') (passing payload)) : payload' = payload := by
  by_cases hi : i < 3
  · have hpayload := hsame.drop (k := 12) (by omega)
    rwa [drop_passing, drop_passing] at hpayload
  · have hfront := hsame.take (k := 12) (by omega)
    obtain ⟨-, hsum⟩ := eq_of_take_passing (hlen ▸ h) h hfront
    obtain ⟨j, rfl⟩ := Nat.exists_eq_add_of_le (Nat.le_of_not_lt hi)
    have hpayload := hsame.drop_words
    rw [drop_passing, drop_passing] at hpayload
    have hwhole' : 4 ∣ payload'.length := hlen ▸ hwhole
    rw [wholeWords_of_dvd hwhole, wholeWords_of_dvd hwhole'] at hsum
    exact hpayload.eq_of_sumComplement hlen hwhole' hsum

theorem take_eq_of_prefix {front file : Bytes} {k : ℕ} (h : front <+: file)
    (hk : k ≤ front.length) : file.take k = front.take k := by
  obtain ⟨rest, rfl⟩ := h
  exact List.take_append_of_le_length hk

theorem not_damaged_passing (hwhole : 4 ∣ payload.length) (h : payload.length < 2 ^ 32)
    (h' : payload'.length < 2 ^ 32) : ¬ Damaged (passing payload) (passing payload') := by
  have hheader (payload : Bytes) : 12 ≤ (passing payload).length := by
    rw [length_passing]
    omega
  intro hdamaged
  cases hdamaged with
  | word i length changed same =>
    rw [length_passing, length_passing] at length
    have hlen : payload'.length = payload.length := by omega
    exact changed (congrArg passing (passing_eq_of_sameOutside hwhole h hlen same))
  | cut changed part =>
    have hfront := take_eq_of_prefix part (hheader payload')
    apply changed
    apply part.eq_of_length
    rw [length_passing, length_passing, (eq_of_take_passing h h' hfront).1]
  | continued changed part =>
    have hfront := take_eq_of_prefix part (hheader payload)
    apply changed
    apply Eq.symm
    apply part.eq_of_length
    rw [length_passing, length_passing, (eq_of_take_passing h' h hfront).1]

theorem failsInspection_of_damaged {other : Bytes} (hwhole : 4 ∣ payload.length)
    (h : payload.length < 2 ^ 32) (hdamaged : Damaged (passing payload) other) :
    Command.FailsInspection other := by
  intro header payload' hparts
  by_contra hall
  rw [Bool.not_eq_false, check_all_iff_passing hparts] at hall
  obtain ⟨h', rfl⟩ := hall
  exact not_damaged_passing hwhole h h' hdamaged

end Header

/-- A file that no inspection takes for an executable: it is too short for a header, or a check
fails, and the command ends with a status of failure. -/
structure Refused (file : Bytes) : Prop where
  short : file.length < 12 → ∀ files path, files.read path = .ok file →
    Inspection.readHeader files path = .error .tooSmall
  failed : 12 ≤ file.length → ∃ header payload, Header.ofBytes? file = some (header, payload) ∧
    (header.check payload).all = false
  inspected : ∀ files path, files.read path = .ok file →
    ∀ host outfile, ∀ flags ∈ Command.silenceArguments, ∀ target,
      target = ["--", path] ∨ target = [path] ∧ path.toList.head? ≠ some '-' →
      (Command.run host files ("dumpinfo" :: (Command.reportArguments outfile ++ flags ++
        target))).exitCode ≠ 0

theorem refused_of_failsInspection {file : Bytes} (h : Command.FailsInspection file) :
    Refused file where
  short := by
    intro hshort files path hread
    have hnone : Header.ofBytes? file = none := by
      rw [Header.ofBytes?]
      exact if_pos hshort
    rw [Inspection.readHeader, hread]
    dsimp only
    rw [hnone]
  failed := by
    intro hlong
    obtain ⟨a, b, c, payload, ha, hb, hc, rfl⟩ := Header.exists_fields hlong
    have hparts := Header.ofBytes?_fields ha hb hc payload
    exact ⟨_, payload, hparts, h _ _ hparts⟩
  inspected := by
    intro files path hread host outfile flags hflags target htarget
    exact Command.exitCode_dumpinfo_ne_zero hread h outfile hflags host htarget

namespace Session

/-- Damage to an executable is always noticed. -/
theorem damaged_executable_refused {s : Session} {reply : ProgramReply} {signer : Option Signer}
    {fixed : Option Bytes} {file other : Bytes}
    (h : s.Creates reply .appBin signer fixed (.binary file)) (hdamaged : Damaged file other) :
    Refused other := by
  have hrender := (creates_unsigned (by decide)).mp h
  obtain ⟨hsize, rfl⟩ := Image.render_appBin_iff_passing.mp hrender
  apply refused_of_failsInspection
  exact Header.failsInspection_of_damaged (Word.dvd_length_filled _) hsize hdamaged

def swappedWordFile : Bytes :=
  [0xfe, 0xca, 0x88, 0x47, 4, 0, 0, 0, 0xff, 0xff, 0xff, 0xff, 0, 1, 0, 0]

theorem swapped_word_refused :
    oneWord.Creates .absent .appBin none none (.binary oneWordFile) ∧
    Damaged oneWordFile swappedWordFile ∧ Refused swappedWordFile := by
  have hcreates : oneWord.Creates .absent .appBin none none (.binary oneWordFile) := by
    rw [creates_unsigned (by decide), Image.render_appBin_iff_passing]
    exact ⟨by decide, by decide⟩
  have hsame : SameOutside 3 swappedWordFile oneWordFile := by
    have hinside : ∀ j < 16, swappedWordFile[j]? ≠ oneWordFile[j]? → j / 4 = 3 := by decide
    intro j hne
    apply hinside j _ hne
    by_contra hlong
    have hend : 16 ≤ j := Nat.le_of_not_lt hlong
    exact hne ((List.getElem?_eq_none hend).trans (List.getElem?_eq_none hend).symm)
  have hdamaged : Damaged oneWordFile swappedWordFile :=
    .word 3 (by decide) (by decide) hsame
  exact ⟨hcreates, hdamaged, damaged_executable_refused hcreates hdamaged⟩

end Session

end BootImage
