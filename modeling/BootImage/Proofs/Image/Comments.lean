import BootImage.Proofs.Image.Formats

/-! What a VHDL comment hides. A comment runs from two hyphens to the end of its line, so the name
in the comments that open a package is hidden up to its first line end, and what follows that end
is code. Two packages of the same image agree outside of their comments exactly when their names
leave the same code behind: names without a line end leave none. -/

namespace BootImage.Listing

/-- Which characters end a line: a line feed does, and printable ones do not. Tools differ on the
others. -/
structure LineEnds (ends : Char → Bool) : Prop where
  feed : ends '\n' = true
  printable : ∀ c, ' ' ≤ c → c ≤ '~' → ends c = false

/-- What is left of a text that starts inside or outside of a comment, once comments are removed. -/
def uncommented (ends : Char → Bool) : Bool → List Char → List Char
  | _, [] => []
  | true, c :: rest =>
    if ends c then c :: uncommented ends false rest else uncommented ends true rest
  | false, '-' :: '-' :: rest => uncommented ends true rest
  | false, c :: rest => c :: uncommented ends false rest

def code (ends : Char → Bool) (text : String) : List Char := uncommented ends false text.toList

variable {ends : Char → Bool}

theorem LineEnds.of_printable (hends : LineEnds ends) {text : String}
    (h : text.toList.all fun c => ' ' ≤ c ∧ c ≤ '~') : ∀ c ∈ text.toList, ends c = false := by
  intro c hc
  obtain ⟨hlow, hhigh⟩ := of_decide_eq_true (List.all_eq_true.mp h c hc)
  exact hends.printable c hlow hhigh

/-- At a line end a text is cut: neither a comment nor its two hyphens reach over it. -/
theorem uncommented_append_cons {c : Char} (hc : ends c = true) (hhyphen : c ≠ '-')
    (inside : Bool) (xs ys : List Char) :
    uncommented ends inside (xs ++ c :: ys) =
      uncommented ends inside xs ++ c :: uncommented ends false ys := by
  fun_induction uncommented ends inside xs with
  | case1 inside =>
    cases inside with
    | true => rw [List.nil_append, List.nil_append, uncommented, if_pos hc]
    | false =>
      rw [List.nil_append, List.nil_append, uncommented]
      rintro _ rfl
      exact absurd rfl hhyphen
  | case2 d rest hd ih =>
    rw [List.cons_append, uncommented, if_pos hd, ih, List.cons_append]
  | case3 d rest hd ih => rw [List.cons_append, uncommented, if_neg hd, ih]
  | case4 rest ih => rw [List.cons_append, List.cons_append, uncommented, ih]
  | case5 d rest hplain ih =>
    rw [List.cons_append, uncommented, ih, List.cons_append]
    rintro tail rfl htail
    cases rest with
    | nil => exact hhyphen (List.cons.inj htail).1
    | cons e rest => exact hplain rest rfl (congrArg (· :: rest) (List.cons.inj htail).1)

theorem uncommented_of_plain {xs : List Char} (h : ∀ c ∈ xs, ends c = false) (ys : List Char) :
    uncommented ends true (xs ++ ys) = uncommented ends true ys := by
  induction xs with
  | nil => rfl
  | cons c rest ih =>
    rw [List.cons_append, uncommented, if_neg (Bool.eq_false_iff.mp (h c List.mem_cons_self))]
    exact ih fun d hd => h d (List.mem_cons_of_mem c hd)

theorem code_comment (name : String) :
    code ends ("--" ++ name) = uncommented ends true name.toList := by
  have hhyphens : "--".toList = ['-', '-'] := rfl
  rw [code, String.toList_append, hhyphens]
  rfl

/-- Comments hide a name exactly if it ends no line. -/
theorem code_comment_eq_nil {name : String} :
    code ends ("--" ++ name) = [] ↔ ∀ c ∈ name.toList, ends c = false := by
  rw [code_comment]
  induction name.toList with
  | nil => exact iff_of_true rfl fun c hc => by cases hc
  | cons c rest ih =>
    rw [uncommented, List.forall_mem_cons, ← ih]
    cases ends c with
    | true => simp
    | false => simp

theorem toList_vhdlOpening_source (package : Package) (built : DateTime) (size : ℕ) :
    ∃ before after, ∀ source, (vhdlOpening package source built size).toList =
      before ++ '\n' :: ("-- Source: ".toList ++ (source.toList ++ '\n' :: after)) := by
  have hbanner : ")\n".toList = [')'] ++ ['\n'] := rfl
  have hfeed : "\n".toList = ['\n'] := rfl
  have hsource (first second third after : List Char) (source : String) :
      first ++ (second ++ (third ++ (")\n".toList ++
        ("-- Source: ".toList ++ (source.toList ++ ("\n".toList ++ after)))))) =
      (first ++ (second ++ (third ++ [')']))) ++
        '\n' :: ("-- Source: ".toList ++ (source.toList ++ '\n' :: after)) := by
    simp only [hbanner, hfeed, List.append_assoc, List.cons_append, List.nil_append]
  exact ⟨_, _, fun source => by
    delta vhdlOpening
    simp only [String.toList_append, List.append_assoc]
    exact hsource _ _ _ _ source⟩

theorem uncommented_source (hends : LineEnds ends) (before after : List Char) (source : String) :
    uncommented ends false
      (before ++ '\n' :: ("-- Source: ".toList ++ (source.toList ++ '\n' :: after))) =
      uncommented ends false before ++
        '\n' :: (code ends ("--" ++ source) ++ '\n' :: uncommented ends false after) := by
  have hlabel : "-- Source: ".toList = '-' :: '-' :: " Source: ".toList := rfl
  have hplain : ∀ c ∈ " Source: ".toList, ends c = false := hends.of_printable (by decide)
  rw [uncommented_append_cons hends.feed (by decide), hlabel, List.cons_append, List.cons_append,
    uncommented, uncommented_of_plain hplain,
    uncommented_append_cons hends.feed (by decide), code_comment]

theorem code_vhdlOpening (hends : LineEnds ends) (package : Package) (built : DateTime) (size : ℕ)
    (rest source other : String) :
    code ends (vhdlOpening package source built size ++ rest) =
        code ends (vhdlOpening package other built size ++ rest) ↔
      code ends ("--" ++ source) = code ends ("--" ++ other) := by
  obtain ⟨before, after, hopening⟩ := toList_vhdlOpening_source package built size
  have hcode (name : String) : code ends (vhdlOpening package name built size ++ rest) =
      uncommented ends false before ++ '\n' :: (code ends ("--" ++ name) ++
        '\n' :: uncommented ends false (after ++ rest.toList)) := by
    rw [← uncommented_source hends, code, String.toList_append, hopening]
    simp only [List.append_assoc, List.cons_append]
  rw [hcode, hcode, List.append_cancel_left_eq, List.cons.injEq, and_iff_right rfl,
    List.append_cancel_right_eq]

end BootImage.Listing

namespace BootImage

namespace Image

open Listing (LineEnds code)

variable {ends : Char → Bool} {image : Image}

def shownName (image : Image) : String := orNone image.sourceName?

/-- Whether neither the project nor the source of an image ends a line. -/
def NamedInLine (ends : Char → Bool) (image : Image) : Prop :=
  ∀ name ∈ image.project.toList ++ image.source.toList, ∀ c ∈ name.toList, ends c = false

instance : Decidable (image.NamedInLine ends) :=
  letI (name : String) : Decidable (∀ c ∈ name.toList, ends c = false) := List.decidableBAll _ _
  inferInstanceAs (Decidable (∀ name ∈ image.project.toList ++ image.source.toList,
    ∀ c ∈ name.toList, ends c = false))

theorem forall_mem_shownName_iff {P : Char → Prop} (hplain : ∀ c ∈ "/None".toList, P c) :
    (∀ c ∈ image.shownName.toList, P c) ↔
      ∀ name ∈ image.project.toList ++ image.source.toList, ∀ c ∈ name.toList, P c := by
  have hslash : ∀ c ∈ "/".toList, P c := fun c hc => hplain c (List.mem_append_left _ hc)
  have hnone : ∀ c ∈ "None".toList, P c := fun c hc => hplain c (List.mem_cons_of_mem _ hc)
  have hsource : (∀ name ∈ image.source.toList, ∀ c ∈ name.toList, P c) ↔
      ∀ c ∈ (orNone image.source).toList, P c := by
    cases image.source with
    | none => exact iff_of_true (fun _ hname => by cases hname) hnone
    | some source => simp [orNone]
  rw [List.forall_mem_append, hsource, shownName, sourceName?]
  cases image.project with
  | none => simp
  | some project =>
    by_cases hempty : project = ""
    · simp [hempty]
    · have hshown : (orNone (some (project ++ "/" ++ orNone image.source))).toList =
          project.toList ++ ("/".toList ++ (orNone image.source).toList) := by
        simp [orNone]
      dsimp only
      rw [if_neg hempty, hshown, List.forall_mem_append, List.forall_mem_append,
        and_iff_right hslash]
      simp

theorem namedInLine_iff (hends : LineEnds ends) :
    image.NamedInLine ends ↔ ∀ c ∈ image.shownName.toList, ends c = false :=
  (forall_mem_shownName_iff (hends.of_printable (by decide))).symm

end Image

namespace Session

open Listing (LineEnds code)

theorem creates_package {format : Format} (hformat : format = .appVhd ∨ format = .bldVhd)
    (payload : Bytes) (built : DateTime) (signature : Bytes) :
    ∃ package size rest, ∀ (s : Session) (reply : ProgramReply) (signer : Option Signer)
      (fixed : Option Bytes), s.image.payload = payload → s.image.built = built →
      (format = .bldVhd → (s.image.signatureFor reply signer fixed).1 = .ok signature) →
      s.Creates reply format signer fixed
        (.text (Listing.vhdlOpening package s.image.shownName built size ++ rest)) := by
  rcases hformat with rfl | rfl
  · refine ⟨.application, payload.length,
      Listing.vhdlTable (Word.split payload) ++ Listing.vhdlClosing .application, ?_⟩
    rintro s reply signer fixed rfl rfl _
    rw [creates_unsigned (by decide), ← String.append_assoc]
    rfl
  · refine ⟨.bootloader, payload.length + Image.secureBootSize,
      Listing.vhdlTable (Word.split payload) ++
        (Listing.vhdlSecureBoot (Word.split signature) (Word.split payload).length ++
          Listing.vhdlClosing .bootloader), ?_⟩
    rintro s reply signer fixed rfl rfl hsignature
    rw [Creates, Format.name, (next_bldVhd_ok (hsignature rfl)).2, ← String.append_assoc,
      ← String.append_assoc]
    rfl

/-- Project and source reach the code of a package through what their name leaves behind its
comment. So an image that is named in a line agrees with exactly those that are, too. -/
theorem package_code_eq_iff {ends : Char → Bool} (hends : LineEnds ends) {s t : Session}
    (hpayload : s.image.payload = t.image.payload) (hbuilt : s.image.built = t.image.built)
    {format : Format} (hformat : format = .appVhd ∨ format = .bldVhd) {signature : Bytes}
    {reply otherReply : ProgramReply} {signer otherSigner : Option Signer}
    {fixed otherFixed : Option Bytes}
    (hsigned : format = .bldVhd →
      (s.image.signatureFor reply signer fixed).1 = .ok signature)
    (hotherSigned : format = .bldVhd →
      (t.image.signatureFor otherReply otherSigner otherFixed).1 = .ok signature) :
    ∃ text otherText, s.Creates reply format signer fixed (.text text) ∧
      t.Creates otherReply format otherSigner otherFixed (.text otherText) ∧
      (code ends text = code ends otherText ↔
        code ends ("--" ++ s.image.shownName) = code ends ("--" ++ t.image.shownName)) ∧
      (s.image.NamedInLine ends →
        (code ends text = code ends otherText ↔ t.image.NamedInLine ends)) := by
  obtain ⟨package, size, rest, hcreates⟩ :=
    creates_package hformat s.image.payload s.image.built signature
  have hcode := Listing.code_vhdlOpening hends package s.image.built size rest
    s.image.shownName t.image.shownName
  refine ⟨_, _, hcreates s _ _ _ rfl rfl hsigned,
    hcreates t _ _ _ hpayload.symm hbuilt.symm hotherSigned, hcode, fun hinline => ?_⟩
  rw [hcode, Listing.code_comment_eq_nil.mpr ((Image.namedInLine_iff hends).mp hinline), eq_comm,
    Listing.code_comment_eq_nil, Image.namedInLine_iff hends]

def oneWordIn (project : String) : Session where
  image :=
    { project := some project, built := ⟨2024, 1, 2, 3, 4, 5⟩, source := some "a.bin"
      payload := [0x93, 0x00, 0x10, 0x00] }
  files := {}

def isLineFeed (c : Char) : Bool := c == '\n'

theorem lineEnds_isLineFeed : LineEnds isLineFeed where
  feed := rfl
  printable := by
    rintro c hlow -
    rw [isLineFeed, beq_eq_false_iff_ne]
    rintro rfl
    exact absurd hlow (by decide)

theorem odd_names_hidden :
    LineEnds isLineFeed ∧
    (oneWordIn "p").image.payload = (oneWordIn "\"\x7b--").image.payload ∧
    (oneWordIn "p").image.built = (oneWordIn "\"\x7b--").image.built ∧
    ((oneWordIn "p").image.signatureFor .absent none (some (Bytes.zeros 256))).1 =
      .ok (Bytes.zeros 256) ∧
    ∃ text otherText,
      (oneWordIn "p").Creates .absent .bldVhd none (some (Bytes.zeros 256)) (.text text) ∧
      (oneWordIn "\"\x7b--").Creates .absent .bldVhd none (some (Bytes.zeros 256))
        (.text otherText) ∧
      code isLineFeed text = code isLineFeed otherText := by
  have hsigned (project : String) : ((oneWordIn project).image.signatureFor .absent none
      (some (Bytes.zeros 256))).1 = .ok (Bytes.zeros 256) := by
    rw [(Image.signatureFor_fixed _ _ _ _).2]
    exact ⟨rfl, List.length_replicate⟩
  have hpayload : (oneWordIn "p").image.payload = (oneWordIn "\"\x7b--").image.payload := rfl
  have hbuilt : (oneWordIn "p").image.built = (oneWordIn "\"\x7b--").image.built := rfl
  have hformat : Format.bldVhd = .appVhd ∨ Format.bldVhd = .bldVhd := Or.inr rfl
  have hinline : (oneWordIn "p").image.NamedInLine isLineFeed := by decide +kernel
  have hotherInline : (oneWordIn "\"\x7b--").image.NamedInLine isLineFeed := by decide +kernel
  obtain ⟨text, otherText, hcreates, hotherCreates, -, hsame⟩ :=
    package_code_eq_iff lineEnds_isLineFeed hpayload hbuilt hformat (fun _ => hsigned "p")
      (fun _ => hsigned "\"\x7b--")
  exact ⟨lineEnds_isLineFeed, hpayload, hbuilt, hsigned "p", text, otherText, hcreates,
    hotherCreates, (hsame hinline).mpr hotherInline⟩

theorem line_feed_reaches_code :
    (oneWordIn "p").image.payload = (oneWordIn "p\nuse work.q.all; --").image.payload ∧
    (oneWordIn "p").image.built = (oneWordIn "p\nuse work.q.all; --").image.built ∧
    ∃ text otherText, (oneWordIn "p").Creates .absent .appVhd none none (.text text) ∧
      (oneWordIn "p\nuse work.q.all; --").Creates .absent .appVhd none none (.text otherText) ∧
      code isLineFeed text ≠ code isLineFeed otherText := by
  have hformat : Format.appVhd = .appVhd ∨ Format.appVhd = .bldVhd := Or.inl rfl
  obtain ⟨package, size, rest, hcreates⟩ :=
    creates_package hformat (oneWordIn "p").image.payload (oneWordIn "p").image.built []
  have hleft : code isLineFeed ("--" ++ (oneWordIn "p").image.shownName) ≠
      code isLineFeed ("--" ++ (oneWordIn "p\nuse work.q.all; --").image.shownName) := by
    decide +kernel
  exact ⟨rfl, rfl, _, _, hcreates _ _ _ _ rfl rfl (by simp), hcreates _ _ _ _ rfl rfl (by simp),
    mt (Listing.code_vhdlOpening lineEnds_isLineFeed _ _ _ _ _ _).mp hleft⟩

end Session

end BootImage
