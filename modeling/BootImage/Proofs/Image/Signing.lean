import BootImage.Image.Basic
import BootImage.Proofs.Digest.Agreement
import BootImage.Proofs.Listing.Vhdl

/-! Signing as part of a step. A signer of any behaviour is asked at most once, its answer passes
two length checks, and what passed is what the emitted table holds. A fixed signature takes its
place. -/

namespace BootImage

def messages (consulted : List Consultation) : List Bytes :=
  consulted.filterMap fun
    | .asked message => some message
    | .ran _ => none

def Answer.Succeeds (answer : Answer) : Prop := ∃ value, answer.outcome = .ok value

namespace Signer

variable {signer : Signer} {reply : ProgramReply} {message signature : Bytes}

theorem messages_sign (signer : Signer) (reply : ProgramReply) (message : Bytes) :
    messages (signer.sign reply message).2 = [message] := by
  cases signer with
  | program p => cases reply <;> rfl
  | rsa | custom | undefined => rfl

/-- Also a signer that answered may fail to name itself or its length. -/
theorem checkLength_eq_ok {bytes : Bytes} :
    signer.checkLength signature = .ok bytes ↔
      signer.signatureLength = .ok (signature.length : ℤ) ∧ bytes = signature := by
  rw [checkLength]
  cases hpromised : signer.signatureLength with
  | error e => simp
  | ok expected =>
    by_cases hlen : (signature.length : ℤ) = expected
    · simp [hlen, eq_comm]
    · cases hname : signer.name <;> simp [hlen, Ne.symm hlen]

theorem checkedSign_consulted (signer : Signer) (reply : ProgramReply) (message : Bytes) :
    (signer.checkedSign reply message).2 = (signer.sign reply message).2 := by
  rw [checkedSign]
  rcases signer.sign reply message with ⟨_ | _, _⟩ <;> rfl

theorem checkedSign_eq_ok :
    (signer.checkedSign reply message).1 = .ok signature ↔
      (signer.sign reply message).1 = .ok signature ∧
      signer.signatureLength = .ok (signature.length : ℤ) := by
  rw [checkedSign]
  rcases signer.sign reply message with ⟨e | bytes, consulted⟩
  · simp
  · simp only [checkLength_eq_ok, Except.ok.injEq]
    constructor
    · rintro ⟨hpromised, rfl⟩
      exact ⟨rfl, hpromised⟩
    · rintro ⟨rfl, hpromised⟩
      exact ⟨hpromised, rfl⟩

end Signer

namespace Image

variable {image : Image} {reply : ProgramReply} {signer : Signer} {signature : Bytes}

theorem signatureFor_consulted (image : Image) (reply : ProgramReply) (signer : Signer) :
    messages (image.signatureFor reply (some signer) none).2 = [image.digestMessage] := by
  have h : (image.signatureFor reply (some signer) none).2 =
      (signer.checkedSign reply image.digestMessage).2 := by
    rw [signatureFor]
    rcases signer.checkedSign reply image.digestMessage with ⟨_ | bytes, consulted⟩
    · rfl
    · dsimp only
      split
      · rfl
      · cases signer.name <;> rfl
  rw [h, Signer.checkedSign_consulted, Signer.messages_sign]

theorem signatureFor_eq_checkedSign :
    (image.signatureFor reply (some signer) none).1 = .ok signature ↔
      (signer.checkedSign reply image.digestMessage).1 = .ok signature ∧
      signature.length = signatureSize := by
  rw [signatureFor]
  rcases signer.checkedSign reply image.digestMessage with ⟨e | bytes, consulted⟩
  · simp
  · by_cases hlen : bytes.length = signatureSize
    · simp only [hlen, if_true, Except.ok.injEq]
      constructor
      · rintro rfl
        exact ⟨rfl, hlen⟩
      · exact And.left
    · have hne : bytes = signature → ¬ signature.length = signatureSize := by
        rintro rfl
        exact hlen
      cases hname : signer.name <;> simpa [hlen] using hne

/-- The answer has to have the length the signer promises and the length an image carries. -/
theorem signatureFor_eq_ok :
    (image.signatureFor reply (some signer) none).1 = .ok signature ↔
      (signer.sign reply image.digestMessage).1 = .ok signature ∧
      signer.signatureLength = .ok 256 ∧ signature.length = 256 := by
  rw [signatureFor_eq_checkedSign, Signer.checkedSign_eq_ok, signatureSize]
  constructor
  · rintro ⟨⟨hsign, hpromised⟩, hlen⟩
    rw [hlen] at hpromised
    exact ⟨hsign, hpromised, hlen⟩
  · rintro ⟨hsign, hpromised, hlen⟩
    rw [hlen]
    exact ⟨⟨hsign, hpromised⟩, rfl⟩

theorem signatureFor_fixed (image : Image) (reply : ProgramReply) (signer : Option Signer)
    (fixed : Bytes) :
    (image.signatureFor reply signer (some fixed)).2 = [] ∧
    ∀ signature, (image.signatureFor reply signer (some fixed)).1 = .ok signature ↔
      signature = fixed ∧ fixed.length = 256 := by
  refine ⟨rfl, fun signature => ?_⟩
  rw [signatureFor, signatureSize]
  by_cases hlen : fixed.length = 256
  · simp [hlen, eq_comm]
  · simp [hlen]

theorem length_of_signatureFor {image : Image} {reply : ProgramReply} {signer : Option Signer}
    {fixed : Option Bytes} {signature : Bytes}
    (h : (image.signatureFor reply signer fixed).1 = .ok signature) : signature.length = 256 := by
  cases fixed with
  | some bytes =>
    obtain ⟨rfl, hlen⟩ := ((signatureFor_fixed image reply signer bytes).2 signature).mp h
    exact hlen
  | none =>
    cases signer with
    | some signer => exact (signatureFor_eq_ok.mp h).2.2
    | none => cases h

def bootloader (image : Image) (signature : Bytes) : String :=
  Listing.vhdlBootloader (orNone image.sourceName?) image.built
    (image.payload.length + secureBootSize) image.words (Word.split signature)

def signedAs (image : Image) (signature : Bytes) : Image :=
  { image with signature := some signature, output := some (.text (image.bootloader signature)) }

theorem createAs_bldVhd (image : Image) (reply : ProgramReply) (signer : Option Signer)
    (fixed : Option Bytes) :
    image.createAs reply .bldVhd signer fixed =
      (((image.signatureFor reply signer fixed).1.map image.signedAs).mapError .signing,
        (image.signatureFor reply signer fixed).2) := by
  rw [createAs, if_pos (by decide), sign]
  rcases image.signatureFor reply signer fixed with ⟨_ | bytes, consulted⟩ <;> rfl

theorem createAs_unsigned {format : Format} (h : format ≠ .bldVhd) (image : Image)
    (reply : ProgramReply) (signer : Option Signer) (fixed : Option Bytes) :
    image.createAs reply format signer fixed = (image.emit format, []) := by
  have hunsigned : format.isSigned = false := by
    cases format <;> first | rfl | exact absurd rfl h
  rw [createAs, hunsigned]
  rfl

theorem emit_eq_ok {format : Format} {emitted : Image} (h : image.emit format = .ok emitted) :
    ∃ output, image.render format = some output ∧
      emitted = { image with output := some output } := by
  rw [emit] at h
  cases hrender : image.render format with
  | none =>
    rw [hrender] at h
    cases h
  | some output =>
    rw [hrender] at h
    cases h
    exact ⟨output, rfl, rfl⟩

end Image

/-- A step that made a bootloader: what it returned carries the signature that the image now has. -/
structure Emits (signature : Bytes) (step : Session × Answer) : Prop where
  returned : ∃ text, step.2.outcome = .ok (.output (.text text)) ∧
    Listing.CarriesSignature text signature
  stored : step.1.image.signature = some signature

namespace Session

variable {s : Session} {reply : ProgramReply} {signer : Option Signer} {fixed : Option Bytes}

theorem create_name (image : Image) (reply : ProgramReply) (format : Format)
    (signer : Option Signer) (fixed : Option Bytes) :
    image.create reply format.name signer fixed = image.createAs reply format signer fixed := by
  rw [Image.create, Format.ofName?_name]

theorem next_create (s : Session) (reply : ProgramReply) (operation : String)
    (signer : Option Signer) (fixed : Option Bytes) :
    s.next reply (.create operation signer fixed) =
      match s.image.create reply operation signer fixed with
      | (.error e, consulted) => (s, { outcome := .error (.create e), consulted })
      | (.ok image, consulted) =>
        ({ s with image },
          { outcome := .ok (match image.output with | some o => .output o | none => .done)
            consulted }) := rfl

theorem next_bldVhd (s : Session) (reply : ProgramReply) (signer : Option Signer)
    (fixed : Option Bytes) :
    s.next reply (.create "bld_vhd" signer fixed) =
      match s.image.signatureFor reply signer fixed with
      | (.error e, consulted) => (s, { outcome := .error (.create (.signing e)), consulted })
      | (.ok signature, consulted) =>
        ({ s with image := s.image.signedAs signature },
          { outcome := .ok (.output (.text (s.image.bootloader signature))), consulted }) := by
  have hcreate := create_name s.image reply .bldVhd signer fixed
  rw [Format.name, Image.createAs_bldVhd] at hcreate
  rw [next_create, hcreate]
  rcases s.image.signatureFor reply signer fixed with ⟨_ | _, _⟩ <;> rfl

theorem consulted_bldVhd (s : Session) (reply : ProgramReply) (signer : Option Signer)
    (fixed : Option Bytes) :
    (s.next reply (.create "bld_vhd" signer fixed)).2.consulted =
      (s.image.signatureFor reply signer fixed).2 := by
  rw [next_bldVhd]
  rcases s.image.signatureFor reply signer fixed with ⟨_ | _, _⟩ <;> rfl

theorem next_bldVhd_ok {signature : Bytes}
    (h : (s.image.signatureFor reply signer fixed).1 = .ok signature) :
    (s.next reply (.create "bld_vhd" signer fixed)).1 =
      { s with image := s.image.signedAs signature } ∧
    (s.next reply (.create "bld_vhd" signer fixed)).2.outcome =
      .ok (.output (.text (s.image.bootloader signature))) := by
  rw [next_bldVhd]
  rcases hfor : s.image.signatureFor reply signer fixed with ⟨_ | bytes, consulted⟩
  · rw [hfor] at h
    cases h
  · rw [hfor] at h
    cases h
    exact ⟨rfl, rfl⟩

theorem succeeds_bldVhd :
    (s.next reply (.create "bld_vhd" signer fixed)).2.Succeeds ↔
      ∃ signature, (s.image.signatureFor reply signer fixed).1 = .ok signature := by
  rw [Answer.Succeeds, next_bldVhd]
  rcases s.image.signatureFor reply signer fixed with ⟨e | signature, consulted⟩
  · simp
  · simp

theorem emits_bldVhd {signature : Bytes}
    (h : (s.image.signatureFor reply signer fixed).1 = .ok signature)
    (hlen : signature.length = 256) :
    Emits signature (s.next reply (.create "bld_vhd" signer fixed)) := by
  obtain ⟨hstate, houtcome⟩ := next_bldVhd_ok h
  refine ⟨⟨_, houtcome, Listing.carriesSignature_bootloader _ _ _ _ hlen⟩, ?_⟩
  rw [hstate, Image.signedAs]

theorem next_unsigned {format : Format} (h : format ≠ .bldVhd) (s : Session)
    (reply : ProgramReply) (signer : Option Signer) (fixed : Option Bytes) :
    (s.next reply (.create format.name signer fixed)).2.consulted = [] ∧
    (s.next reply (.create format.name signer fixed)).1.image.signature = s.image.signature := by
  rw [next_create, create_name, Image.createAs_unsigned h]
  cases hemit : s.image.emit format with
  | error e => exact ⟨rfl, rfl⟩
  | ok emitted =>
    obtain ⟨output, _, rfl⟩ := Image.emit_eq_ok hemit
    exact ⟨rfl, rfl⟩

/-- What is signed is what is emitted. -/
theorem signed_is_emitted (s : Session) (reply : ProgramReply) :
    (∀ signer : Signer, ∃ message,
      messages (s.next reply (.create "bld_vhd" (some signer) none)).2.consulted = [message] ∧
      message.length = 32 ∧
      Bytes.groups 4 message =
        (Bytes.groups 4 (Digest.digest s.image.payload)).map List.reverse ∧
      ((s.next reply (.create "bld_vhd" (some signer) none)).2.Succeeds ↔
        ∃ signature, (signer.sign reply message).1 = .ok signature ∧
          signer.signatureLength = .ok 256 ∧ signature.length = 256) ∧
      ∀ signature, (signer.sign reply message).1 = .ok signature →
        (s.next reply (.create "bld_vhd" (some signer) none)).2.Succeeds →
        Emits signature (s.next reply (.create "bld_vhd" (some signer) none))) ∧
    (∀ (signer : Option Signer) (fixed : Bytes),
      (s.next reply (.create "bld_vhd" signer (some fixed))).2.consulted = [] ∧
      ((s.next reply (.create "bld_vhd" signer (some fixed))).2.Succeeds ↔ fixed.length = 256) ∧
      ((s.next reply (.create "bld_vhd" signer (some fixed))).2.Succeeds →
        Emits fixed (s.next reply (.create "bld_vhd" signer (some fixed))))) ∧
    ∀ format : Format, format ≠ .bldVhd → ∀ (signer : Option Signer) (fixed : Option Bytes),
      (s.next reply (.create format.name signer fixed)).2.consulted = [] ∧
      (s.next reply (.create format.name signer fixed)).1.image.signature =
        s.image.signature := by
  refine ⟨fun signer => ?_, fun signer fixed => ?_, fun format h => next_unsigned h s reply⟩
  · refine ⟨s.image.digestMessage, ?_, Digest.length_wordMessage _, Digest.groups_wordMessage _,
      ?_, ?_⟩
    · rw [consulted_bldVhd, Image.signatureFor_consulted]
    · simp only [succeeds_bldVhd, Image.signatureFor_eq_ok]
    · intro signature hsign hsucceeds
      obtain ⟨returned, hreturned⟩ := succeeds_bldVhd.mp hsucceeds
      obtain ⟨hanswer, _, hlen⟩ := Image.signatureFor_eq_ok.mp hreturned
      have hsame : signature = returned := Except.ok.inj (hsign.symm.trans hanswer)
      rw [hsame]
      exact emits_bldVhd hreturned hlen
  · obtain ⟨hsilent, hfixed⟩ := Image.signatureFor_fixed s.image reply signer fixed
    have hsucceeds : (s.next reply (.create "bld_vhd" signer (some fixed))).2.Succeeds ↔
        fixed.length = 256 := by
      rw [succeeds_bldVhd]
      simp only [hfixed, exists_eq_left]
    refine ⟨?_, hsucceeds, fun h => ?_⟩
    · rw [consulted_bldVhd, hsilent]
    · have hlen := hsucceeds.mp h
      exact emits_bldVhd ((hfixed fixed).mpr ⟨rfl, hlen⟩) hlen

end Session

end BootImage
