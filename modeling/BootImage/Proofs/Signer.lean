import BootImage.FileStore.Lemmas
import BootImage.Proofs.Bytes
import BootImage.Proofs.Image.Signing
import BootImage.Signer
import Mathlib.Data.List.Basic

/-! Signatures in files and from programs. Whatever stands between the letters of an encoding and
its padding is passed over in every state of the reader, so a signature that was saved is loaded
again after line breaks, blanks and other marks have come into its file. A program may not start,
fail, or leave any signature; each of these is told as a failure to sign. But what it prints is
decoded before its status is looked at, and its signature is read after that; a failure there leaves
the signer as it is. -/

namespace BootImage

namespace Base64

def alphabet : Bytes :=
  Bytes.ofText "ABCDEFGHIJKLMNOPQRSTUVWXYZabcdefghijklmnopqrstuvwxyz0123456789+/"

def IsMark (b : UInt8) : Prop := b ∉ alphabet ∧ b ≠ padding

instance (b : UInt8) : Decidable (IsMark b) := inferInstanceAs (Decidable (_ ∧ _))

/-- The text after marks were inserted, any number of times. -/
inductive Marked (text : Bytes) : Bytes → Prop where
  | untouched : Marked text text
  | insert {front back : Bytes} (marks : Bytes) : (∀ b ∈ marks, IsMark b) →
    Marked text (front ++ back) → Marked text (front ++ marks ++ back)

variable {b : UInt8} {quad : Quad} {pads : Nat} {written text content : Bytes}

/-- The reader knows the letters of the alphabet and no others. -/
theorem sextet?_eq_none_iff : sextet? b = none ↔ b ∉ alphabet := by
  have hbytes : ∀ n < 256, sextet? (UInt8.ofNat n) = none ↔ UInt8.ofNat n ∉ alphabet := by
    decide +kernel
  have hb := hbytes b.toNat b.toNat_lt
  rwa [UInt8.ofNat_toNat] at hb

theorem readLenient_mark (h : IsMark b) (rest : Bytes) :
    readLenient quad pads written (b :: rest) = readLenient quad pads written rest := by
  obtain ⟨halphabet, hpadding⟩ := h
  have hsextet : sextet? b = none := sextet?_eq_none_iff.mpr halphabet
  simp only [readLenient, hpadding, hsextet, if_false]

theorem readLenient_marks {marks : Bytes} (h : ∀ b ∈ marks, IsMark b) (rest : Bytes) :
    readLenient quad pads written (marks ++ rest) = readLenient quad pads written rest := by
  induction marks with
  | nil => rfl
  | cons b marks ih =>
    rw [List.cons_append, readLenient_mark (h b List.mem_cons_self)]
    apply ih
    intro other hother
    exact h other (List.mem_cons_of_mem b hother)

/-- The state in which the reader comes to the marks does not matter. -/
theorem readLenient_insert {marks : Bytes} (h : ∀ b ∈ marks, IsMark b) (front back : Bytes) :
    readLenient quad pads written (front ++ marks ++ back) =
      readLenient quad pads written (front ++ back) := by
  induction front generalizing quad pads written with
  | nil => exact readLenient_marks h back
  | cons b front ih =>
    simp only [List.cons_append, readLenient]
    by_cases hpadding : b = padding
    · simp only [hpadding, if_true, ih]
    · cases hsextet : sextet? b with
      | none => simp only [hpadding, if_false, ih]
      | some n => simp only [hpadding, if_false, ih]

theorem decode_of_marked (h : Marked text content) : decode content = decode text := by
  induction h with
  | untouched => rfl
  | insert marks hmarks _ ih =>
    rw [← ih]
    exact readLenient_insert hmarks _ _

end Base64

namespace SignatureFile

variable {files opened : FileStore} {path : String} {signature content : Bytes}

theorem load_of_read (hread : files.read path = .ok content) :
    load files path = (Base64.decode content).mapError .base64 := by
  rw [load, hread]
  cases hdecode : Base64.decode content with
  | ok signature => simp only [hdecode, Except.mapError]
  | error cause => simp only [hdecode, Except.mapError]

/-- A signature saved to a file that takes it is loaded from there, and from any file that holds
what was written with marks inserted. -/
theorem load_of_marked (hopen : files.write path [] = .ok opened) (signature : Bytes)
    (hroom : files.HasRoom path (Base64.encode signature)) :
    ∃ saved written, save files path signature = .ok saved ∧ saved.read path = .ok written ∧
      load saved path = .ok signature ∧
      ∀ content, Base64.Marked written content → ∀ (later : FileStore) (kept : String),
        later.read kept = .ok content → load later kept = .ok signature := by
  have hloads {store : FileStore} {name : String} {content : Bytes}
      (hmarked : Base64.Marked (Base64.encode signature) content)
      (hread : store.read name = .ok content) : load store name = .ok signature := by
    rw [load_of_read hread, Base64.decode_of_marked hmarked, Base64.decode_encode, Except.mapError]
  obtain ⟨saved, hsave⟩ := FileStore.write_of_write hopen hroom
  have hwritten := FileStore.read_of_write hsave
  refine ⟨saved, Base64.encode signature, hsave, hwritten, hloads .untouched hwritten, ?_⟩
  intro content hmarked later kept hread
  exact hloads hmarked hread

def quotedText : Bytes := Bytes.ofText "> AQ\r\n> IDBA=\t="

theorem marked_quotedText : Base64.Marked (Base64.encode [1, 2, 3, 4]) quotedText := by
  have hquote : ∀ b ∈ Bytes.ofText "> ", Base64.IsMark b := by decide +kernel
  have hcut : ∀ b ∈ Bytes.ofText "\r\n> ", Base64.IsMark b := by decide +kernel
  have htab : ∀ b ∈ Bytes.ofText "\t", Base64.IsMark b := by decide +kernel
  have htext : Base64.encode [1, 2, 3, 4] = [] ++ Bytes.ofText "AQIDBA==" := by decide +kernel
  have hquoted : [] ++ Bytes.ofText "> " ++ Bytes.ofText "AQIDBA==" =
      Bytes.ofText "> AQ" ++ Bytes.ofText "IDBA==" := by decide +kernel
  have hlines : Bytes.ofText "> AQ" ++ Bytes.ofText "\r\n> " ++ Bytes.ofText "IDBA==" =
      Bytes.ofText "> AQ\r\n> IDBA=" ++ Bytes.ofText "=" := by decide +kernel
  have hall : Bytes.ofText "> AQ\r\n> IDBA=" ++ Bytes.ofText "\t" ++ Bytes.ofText "=" =
      quotedText := by decide +kernel
  rw [← hall]
  apply Base64.Marked.insert _ htab
  rw [← hlines]
  apply Base64.Marked.insert _ hcut
  rw [← hquoted]
  apply Base64.Marked.insert _ hquote
  rw [← htext]
  exact .untouched

theorem quoted_signature_loads :
    ({} : FileStore).write "a.sig" [] = .ok { nodes := [(["a.sig"], .file [])] } ∧
    ({} : FileStore).HasRoom "a.sig" (Base64.encode [1, 2, 3, 4]) ∧
    Base64.Marked (Base64.encode [1, 2, 3, 4]) quotedText ∧
    ∃ saved, save {} "a.sig" [1, 2, 3, 4] = .ok saved ∧ load saved "a.sig" = .ok [1, 2, 3, 4] ∧
      load { nodes := [(["mail.txt"], .file quotedText)] } "mail.txt" = .ok [1, 2, 3, 4] := by
  have hopen : ({} : FileStore).write "a.sig" [] = .ok { nodes := [(["a.sig"], .file [])] } := by
    decide +kernel
  have hroom : ({} : FileStore).HasRoom "a.sig" (Base64.encode [1, 2, 3, 4]) :=
    FileStore.hasRoom_of_unlimited rfl
  obtain ⟨saved, written, hsave, hwritten, hloads, hmarked⟩ :=
    load_of_marked hopen [1, 2, 3, 4] hroom
  have hsaved : saved.read "a.sig" = .ok (Base64.encode [1, 2, 3, 4]) :=
    FileStore.read_of_write hsave
  cases hwritten.symm.trans hsaved
  refine ⟨hopen, hroom, marked_quotedText, saved, hsave, hloads, ?_⟩
  exact hmarked _ marked_quotedText _ _ (by decide +kernel)

end SignatureFile

/-- What is raised as it is: a failure around the files of a program, a command that cannot be
passed on, and output that is no text. -/
inductive ProgramReply.Raises : ProgramReply → SigningError → Prop where
  | unprepared (cause : OsError) : Raises (.unprepared cause) (.file (.os cause))
  | malformed : Raises (.failsToStart .embeddedNul) (.file .embeddedNul)
  | undecodable {signature : Option Node} {status : ℤ} {output diagnostics : Bytes} :
    Text.decodeUtf8 output = none ∨ Text.decodeUtf8 diagnostics = none →
    Raises (.ends signature status output diagnostics) .undecodable
  | unread {signature : Option Node} {output diagnostics : Bytes} {fault : PathFault} :
    Text.decodeUtf8 output ≠ none → Text.decodeUtf8 diagnostics ≠ none →
    Node.content signature = .error fault →
    Raises (.ends signature 0 output diagnostics)
      (.file (.os (fault.osError ProgramSigner.signatureFile)))
  | uncleared (cause : OsError) : Raises (.uncleared cause) (.file (.os cause))

/-- The program ends well, its output is text, and its signature can be read. -/
inductive ProgramReply.Signs : ProgramReply → Bytes → Prop where
  | ends {signature output diagnostics : Bytes} : Text.decodeUtf8 output ≠ none →
    Text.decodeUtf8 diagnostics ≠ none →
    Signs (.ends (some (.file signature)) 0 output diagnostics) signature

theorem ProgramReply.Raises.not_signing {reply : ProgramReply} {cause : SigningError}
    (h : reply.Raises cause) : cause.isSigningFailure = false := by
  cases h <;> rfl

namespace ProgramSigner

variable {p : ProgramSigner} {reply : ProgramReply} {signature : Bytes} {cause : SigningError}

theorem outcome_of_raises (h : reply.Raises cause) : p.outcome reply = .error cause := by
  cases h with
  | unprepared | malformed | uncleared => rfl
  | undecodable htext =>
    rw [outcome]
    split
    · next houtput hdiagnostics =>
      rw [houtput, hdiagnostics] at htext
      simp at htext
    · rfl
  | @unread _ output diagnostics fault houtput hdiagnostics hcontent =>
    obtain ⟨_, houtput⟩ := Option.ne_none_iff_exists'.mp houtput
    obtain ⟨_, hdiagnostics⟩ := Option.ne_none_iff_exists'.mp hdiagnostics
    simp only [outcome, houtput, hdiagnostics, hcontent, ne_eq, not_true_eq_false, if_false]

theorem outcome_cases (p : ProgramSigner) (reply : ProgramReply) :
    (∃ signature, p.outcome reply = .ok signature ∧ reply.Signs signature) ∨
    (∃ cause, p.outcome reply = .error cause ∧ cause.isSigningFailure = true) ∨
    ∃ cause, reply.Raises cause := by
  cases reply with
  | unprepared cause => exact Or.inr (Or.inr ⟨_, .unprepared cause⟩)
  | absent => exact Or.inr (Or.inl ⟨_, rfl, rfl⟩)
  | failsToStart cause =>
    cases cause with
    | os cause => exact Or.inr (Or.inl ⟨_, rfl, rfl⟩)
    | embeddedNul => exact Or.inr (Or.inr ⟨_, .malformed⟩)
  | ends node status output diagnostics =>
    cases houtput : Text.decodeUtf8 output with
    | none => exact Or.inr (Or.inr ⟨_, .undecodable (Or.inl houtput)⟩)
    | some printed =>
      cases hdiagnostics : Text.decodeUtf8 diagnostics with
      | none => exact Or.inr (Or.inr ⟨_, .undecodable (Or.inr hdiagnostics)⟩)
      | some told =>
        have htext : Text.decodeUtf8 output ≠ none ∧ Text.decodeUtf8 diagnostics ≠ none := by
          simp [houtput, hdiagnostics]
        simp only [outcome, houtput, hdiagnostics]
        by_cases hstatus : status = 0
        · subst hstatus
          cases hcontent : Node.content node with
          | ok signature =>
            rw [Node.content_eq_ok] at hcontent
            subst hcontent
            exact Or.inl ⟨signature, by simp, .ends htext.1 htext.2⟩
          | error fault => exact Or.inr (Or.inr ⟨_, .unread htext.1 htext.2 hcontent⟩)
        · rw [if_pos hstatus]
          exact Or.inr (Or.inl ⟨_, rfl, rfl⟩)
  | uncleared cause => exact Or.inr (Or.inr ⟨_, .uncleared cause⟩)

end ProgramSigner

namespace Signer

variable {p : ProgramSigner} {reply : ProgramReply} {message signature : Bytes}
  {cause : SigningError}

theorem checkedSign_eq_error {signer : Signer} :
    (signer.checkedSign reply message).1 = .error cause ↔
      (signer.sign reply message).1 = .error cause ∨
      ∃ bytes, (signer.sign reply message).1 = .ok bytes ∧
        signer.checkLength bytes = .error cause := by
  rw [checkedSign]
  rcases signer.sign reply message with ⟨e | bytes, consulted⟩
  · simp
  · simp

theorem isSigningFailure_of_checkLength (h : (program p).checkLength signature = .error cause) :
    cause.isSigningFailure = true := by
  rw [checkLength, signatureLength, name] at h
  dsimp only at h
  split at h
  · cases h
  · cases h
    rfl

theorem checkedSign_of_raises (h : reply.Raises cause) :
    ((program p).checkedSign reply message).1 = .error cause :=
  checkedSign_eq_error.mpr (Or.inl (ProgramSigner.outcome_of_raises h))

/-- The program's signature comes back with the length that is promised, or a failure to sign is
told. -/
def SignsOrTells (p : ProgramSigner) (reply : ProgramReply) (message : Bytes) : Prop :=
  (∃ signature, ((program p).checkedSign reply message).1 = .ok signature ∧
    reply.Signs signature ∧ (program p).signatureLength = .ok (signature.length : ℤ)) ∨
  ∃ cause, ((program p).checkedSign reply message).1 = .error cause ∧
    cause.isSigningFailure = true

theorem not_signsOrTells (h : reply.Raises cause) : ¬ SignsOrTells p reply message := by
  have herror : ((program p).checkedSign reply message).1 = .error cause := checkedSign_of_raises h
  rintro (⟨_, hsignature, _⟩ | ⟨told, hsame, htold⟩)
  · cases hsignature.symm.trans herror
  · cases hsame.symm.trans herror
    cases htold.symm.trans h.not_signing

theorem signsOrTells_of_quiet (hquiet : ∀ cause, ¬ reply.Raises cause) :
    SignsOrTells p reply message := by
  rcases p.outcome_cases reply with ⟨signature, hsign, hsigns⟩ | ⟨cause, hfails, htold⟩ | hcause
  · cases hchecked : ((program p).checkedSign reply message).1 with
    | ok returned =>
      obtain ⟨hreturned, hpromised⟩ := checkedSign_eq_ok.mp hchecked
      cases hsign.symm.trans hreturned
      exact Or.inl ⟨signature, hchecked, hsigns, hpromised⟩
    | error cause =>
      rcases checkedSign_eq_error.mp hchecked with hrefused | ⟨bytes, _, hlength⟩
      · cases hsign.symm.trans hrefused
      · exact Or.inr ⟨cause, hchecked, isSigningFailure_of_checkLength hlength⟩
  · exact Or.inr ⟨cause, checkedSign_eq_error.mpr (Or.inl hfails), htold⟩
  · obtain ⟨cause, hcause⟩ := hcause
    exact absurd hcause (hquiet cause)

/-- A program signs or is told to have failed, except where its files, its command or its output
raise an error; then that error is what the caller gets. -/
theorem program_signs_or_tells (p : ProgramSigner) (reply : ProgramReply) (message : Bytes) :
    (SignsOrTells p reply message ↔ ∀ cause, ¬ reply.Raises cause) ∧
    ∀ cause, reply.Raises cause →
      ((program p).checkedSign reply message).1 = .error cause ∧
        cause.isSigningFailure = false := by
  refine ⟨⟨fun h cause hcause => ?_, signsOrTells_of_quiet⟩, fun cause hcause => ?_⟩
  · exact not_signsOrTells hcause h
  · exact ⟨checkedSign_of_raises hcause, hcause.not_signing⟩

theorem unsigned_end_tells_otherwise :
    ¬ SignsOrTells { keyFile := "k.pem" } (.ends none 0 [] []) [0] ∧
    ¬ SignsOrTells { keyFile := "k.pem" } (.ends none 1 [] [0xff]) [0] := by
  have htext : Text.decodeUtf8 [] ≠ none := by decide +kernel
  have hbroken : Text.decodeUtf8 [0xff] = none := by decide +kernel
  exact ⟨not_signsOrTells (.unread htext htext rfl),
    not_signsOrTells (.undecodable (Or.inr hbroken))⟩

end Signer

end BootImage
