import TradingDesk.Auth.RequestSignature
import TradingDesk.Proofs.Bytes.Base64
import TradingDesk.Proofs.Error

/-! The key that a secret spells. The spellings are tried one after the other, but the order is of
no account: those that can read a secret read one key from it. So each spelling of a key signs the
same way, and a secret is refused just when no spelling can read it. -/

namespace TradingDesk.RequestSignature

open Base64

variable {secret timestamp method path : String} {body : Option String} {k : Bytes}

/-- Some format reads the key `k` from `secret`. -/
def Spells (secret : String) (k : Bytes) : Prop :=
  ∃ f ∈ formats, f.decode (Bytes.ofString secret) = .ok k

/-- What the first of the formats `fs` that can read `text` reads from it. -/
def firstRead? (fs : List Format) (text : Bytes) : Option Bytes :=
  fs.findSome? fun f => (f.decode text).toOption

theorem decode_of_firstRead? {fs : List Format} {text : Bytes} (h : firstRead? fs text = some k) :
    ∃ f ∈ fs, f.decode text = .ok k := by
  obtain ⟨f, hf, hread⟩ := List.exists_of_findSome?_eq_some h
  refine ⟨f, hf, ?_⟩
  cases hdecode : f.decode text with
  | error e => simp [hdecode, Except.toOption] at hread
  | ok l =>
    rw [hdecode] at hread
    cases hread
    rfl

/-- Whichever of `fs` comes first, it reads what any other one reads. -/
theorem firstRead?_eq_some {fs : List Format} (hfs : ∀ f ∈ fs, f ∈ formats) {text : Bytes} :
    firstRead? fs text = some k ↔ ∃ f ∈ fs, f.decode text = .ok k := by
  refine ⟨decode_of_firstRead?, ?_⟩
  rintro ⟨f, hf, hread⟩
  cases hfirst : firstRead? fs text with
  | none =>
    have hnone := List.findSome?_eq_none_iff.1 hfirst f hf
    rw [hread] at hnone
    cases hnone
  | some l =>
    obtain ⟨g, hg, hother⟩ := decode_of_firstRead? hfirst
    rw [decode_agree (hfs g hg) (hfs f hf) hother hread]

theorem decodeSecret_toOption (secret : String) :
    (decodeSecret secret).toOption = firstRead? formats (Bytes.ofString secret) := by
  unfold decodeSecret firstRead? formats
  simp only [List.findSome?_cons, List.findSome?_nil]
  split
  · rename_i h
    simp [h, Except.toOption]
  · rename_i h
    split
    · rename_i h'
      simp [h, h', Except.toOption]
    · rename_i h'
      cases standard.decode (Bytes.ofString secret) with
      | ok l => simp [h, h', Except.toOption]
      | error e => simp [h, h', Except.toOption]

theorem decodeSecret_eq_ok : decodeSecret secret = .ok k ↔ Spells secret k := by
  rw [Spells, ← firstRead?_eq_some fun f hf => hf, ← decodeSecret_toOption]
  cases decodeSecret secret with
  | ok l => simp [Except.toOption]
  | error e => simp [Except.toOption]

theorem Spells.sign (h : Spells secret k) (timestamp method path : String)
    (body : Option String) : RequestSignature.sign secret timestamp method path body =
      .ok (digestText k (message timestamp method path body)) := by
  rw [RequestSignature.sign, decodeSecret_eq_ok.2 h]

theorem spells_spelling {f : Format} (hf : f ∈ formats) (k : Bytes) : Spells (f.spelling k) k :=
  ⟨f, hf, by rw [ofString_spelling hf, decode_encode hf]⟩

theorem sign_eq_auth_error : (∃ fault, sign secret timestamp method path body =
    .error (.auth fault)) ↔ ∀ k, ¬ Spells secret k := by
  constructor
  · rintro ⟨fault, herror⟩ k hk
    rw [hk.sign] at herror
    cases herror
  · intro h
    cases hdecode : decodeSecret secret with
    | ok k => exact absurd (decodeSecret_eq_ok.1 hdecode) (h k)
    | error e => exact ⟨.secret e, by rw [sign, hdecode]⟩

/-- Each format `f` reads just what it writes, and no two of them read different keys from one
`secret`, so the order in which they are tried decides nothing; each spelling of a key `k` signs as
`k`; and a `secret` is refused just when none of the `formats` reads it. -/
theorem secrets_read :
    (∀ f ∈ formats, ∀ (text k : Bytes), f.decode text = .ok k ↔ text = f.encode k) ∧
    (∀ (secret : String) (f g : Format), f ∈ formats → g ∈ formats → ∀ k l : Bytes,
      f.decode (Bytes.ofString secret) = .ok k → g.decode (Bytes.ofString secret) = .ok l →
      k = l) ∧
    (∀ (secret : String) (fs : List Format), fs.Perm formats →
      firstRead? fs (Bytes.ofString secret) = (decodeSecret secret).toOption) ∧
    (∀ (k : Bytes) (timestamp method path : String) (body : Option String), ∀ f ∈ formats,
      sign (f.spelling k) timestamp method path body =
        .ok (digestText k (message timestamp method path body))) ∧
    ∀ (secret timestamp method path : String) (body : Option String),
      (∃ fault, sign secret timestamp method path body = .error (.auth fault)) ↔
        ∀ f ∈ formats, ∀ k, f.decode (Bytes.ofString secret) ≠ .ok k := by
  refine ⟨fun f hf text k => decode_eq_ok hf, ?_, ?_, ?_, ?_⟩
  · intro secret f g hf hg k l hk hl
    exact decode_agree hf hg hk hl
  · intro secret fs hfs
    rw [decodeSecret_toOption]
    ext k
    rw [firstRead?_eq_some fun f hf => hfs.mem_iff.1 hf, firstRead?_eq_some fun f hf => hf]
    simp only [hfs.mem_iff]
  · intro k timestamp method path body f hf
    exact (spells_spelling hf k).sign timestamp method path body
  · intro secret timestamp method path body
    rw [sign_eq_auth_error]
    constructor
    · intro h f hf k hk
      exact h k ⟨f, hf, hk⟩
    · rintro h k ⟨f, hf, hk⟩
      exact h f hf k hk

/-- Bytes with the two symbols that the formats spell differently, a text that two formats read, and
one that none can read. -/
theorem secrets_read_highest :
    (∀ secret ∈ ["-_8=", "-_8", "+/8="], ∀ timestamp method path body,
      sign secret timestamp method path body =
        .ok (digestText [251, 255] (message timestamp method path body))) ∧
    (∀ l, standard.decode (Bytes.ofString "QUI=") = .ok l → l = [65, 66]) ∧
    firstRead? formats.reverse (Bytes.ofString "QUI=") = (decodeSecret "QUI=").toOption ∧
    ∃ fault, sign "QUJ=" "1" "GET" "/order" none = .error (.auth fault) := by
  obtain ⟨hcanonical, hagree, horder, hsign, hrefuse⟩ := secrets_read
  refine ⟨?_, ?_, ?_, ?_⟩
  · have hurl : urlSafe.spelling [251, 255] = "-_8=" := by decide +kernel
    have hbare : urlSafeUnpadded.spelling [251, 255] = "-_8" := by decide +kernel
    have hstandard : standard.spelling [251, 255] = "+/8=" := by decide +kernel
    rw [← hurl, ← hbare, ← hstandard, List.forall_mem_cons, List.forall_mem_cons,
      List.forall_mem_singleton]
    refine ⟨?_, ?_, ?_⟩
    all_goals exact fun t m p b => hsign [251, 255] t m p b _ (by simp [formats])
  · have hread : urlSafe.decode (Bytes.ofString "QUI=") = .ok [65, 66] :=
      (hcanonical urlSafe (by simp [formats]) _ _).2 (by decide +kernel)
    intro l hl
    exact hagree "QUI=" standard urlSafe (by simp [formats]) (by simp [formats]) l _ hl hread
  · exact horder "QUI=" _ (List.reverse_perm formats)
  · refine (hrefuse "QUJ=" "1" "GET" "/order" none).2 ?_
    have hnone : ∀ f ∈ formats, (f.decode (Bytes.ofString "QUJ=")).toOption = none := by
      decide +kernel
    intro f hf k hk
    have hread := hnone f hf
    rw [hk] at hread
    cases hread

end TradingDesk.RequestSignature
