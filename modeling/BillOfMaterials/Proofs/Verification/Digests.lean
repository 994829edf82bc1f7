import BillOfMaterials.Proofs.Manifest.Written
import BillOfMaterials.Proofs.Verification.Verdict

/-! # Digests are accepted in full only

    * `FullLength` says how many digits a digest has, from what a manifest writes for its
      algorithm.
    * `IsDigest` are the texts of so many small hexadecimal digits; `isDigest_compute`:
      what is computed is one, for files of any size.
    * `Spoilt` are texts that are cut off, padded or not made of digits; `not_spoilt_compute`:
      none of them is computed.
    * `verify_full_digests`: files that pass have an accepted digest of full length under
      every algorithm, and no file passes by spoilt ones. -/

namespace BillOfMaterials.Verification

/-! ## Lengths -/

/-- The algorithms of fixed length, with the number of digits of their digests. -/
def fixedLengths : List (String × Nat) :=
  [("sha1", 40), ("sha224", 56), ("sha256", 64), ("sha384", 96), ("sha512", 128)]

/-- The number of digits in a digest of an algorithm, whose name is written in any case. -/
inductive FullLength : Manifest.Algorithm → Nat → Prop where
  | fixed {name : String} {count : Nat} : (Text.lowered name, count) ∈ fixedLengths →
      FullLength ⟨name, none⟩ count
  | extendable {name : String} {bytes : Nat} : Text.lowered name ∈ ["shake128", "shake256"] →
      1 ≤ bytes → bytes ≤ 65536 → FullLength ⟨name, some bytes⟩ (2 * bytes)

theorem fullLength_of_resolve {name : String} {keyLength? : Option Nat} {kind : DigestKind}
    (h : DigestKind.resolve name keyLength? = some kind)
    (hpositive : ∀ length ∈ keyLength?, 1 ≤ length) :
    FullLength ⟨name, keyLength?⟩ (2 * kind.size) := by
  unfold DigestKind.resolve at h
  split at h
  case h_1 hname | h_2 hname | h_3 hname | h_4 hname | h_5 hname =>
    cases h
    exact .fixed (by simp [fixedLengths, hname, DigestKind.size])
  case h_6 length hname | h_7 length hname =>
    split at h
    · next hbound =>
      cases h
      exact .extendable (by simp [hname]) (hpositive length rfl) hbound
    · cases h
  case h_8 => cases h

/-! ## Digits -/

/-- A small hexadecimal digit. -/
def IsHexDigit (c : Char) : Prop := ('0' ≤ c ∧ c ≤ '9') ∨ ('a' ≤ c ∧ c ≤ 'f')

instance : DecidablePred IsHexDigit := fun _ => inferInstanceAs (Decidable (_ ∨ _))

/-- A text of so many small hexadecimal digits. -/
structure IsDigest (count : Nat) (digest : String) : Prop where
  length : digest.length = count
  digits : ∀ c ∈ digest.toList, IsHexDigit c

theorem isHexDigit_hexDigit {n : Nat} (h : n < 16) : IsHexDigit (Text.hexDigit n) := by
  have hall : ∀ n < 16, IsHexDigit (Text.hexDigit n) := by decide
  exact hall n h

theorem isHexDigit_of_mem_hex {bytes : List UInt8} {c : Char}
    (h : c ∈ (Digest.hex bytes).toList) : IsHexDigit c := by
  rw [Digest.hex, String.toList_ofList, List.mem_flatMap] at h
  obtain ⟨byte, -, hc⟩ := h
  have hbyte := byte.toNat_lt
  rcases List.mem_pair.1 hc with rfl | rfl
  · exact isHexDigit_hexDigit (by omega)
  · exact isHexDigit_hexDigit (by omega)

theorem isDigest_compute (kind : DigestKind) (bytes : List UInt8) :
    IsDigest (2 * kind.size) (kind.compute bytes) := by
  refine ⟨?_, fun c hc => isHexDigit_of_mem_hex hc⟩
  rw [← String.length_toList, DigestKind.compute, Digest.length_toList_hex,
    DigestKind.length_digest]

/-- What became of the right digest: a part of it, more than it, or no digits. -/
inductive Spoilt (right : String) : String → Prop where
  | cut {digest : String} : digest.toList <:+: right.toList → digest ≠ right →
      Spoilt right digest
  | padded {digest : String} : right.toList <:+: digest.toList → digest ≠ right →
      Spoilt right digest
  | foreign {digest : String} {c : Char} : c ∈ digest.toList → ¬ IsHexDigit c →
      Spoilt right digest

theorem not_spoilt_compute (kind : DigestKind) (bytes : List UInt8) :
    ¬ Spoilt (kind.compute bytes) (kind.compute bytes) := by
  rintro (⟨-, hne⟩ | ⟨-, hne⟩ | ⟨hc, hdigit⟩)
  · exact hne rfl
  · exact hne rfl
  · exact hdigit ((isDigest_compute kind bytes).digits _ hc)

/-! ## Verification -/

theorem load_eq_ok_iff {path : Path} {text : String} {manifest : Manifest} :
    Manifest.load path (.ok text) = .ok manifest ↔ Manifest.ofText text = .ok manifest := by
  rw [Manifest.load]
  cases Manifest.ofText text <;> simp

/-- An algorithm that is confirmed has an accepted digest of full length. -/
theorem exists_isDigest_of_confirmed {entries : List Manifest.Entry} {bytes : List UInt8}
    {algorithm : Manifest.Algorithm} (h : Confirmed entries bytes algorithm)
    (hpositive : ∀ length ∈ algorithm.keyLength?, 1 ≤ length) :
    ∃ count, FullLength algorithm count ∧
      ∃ e ∈ entries, e.algorithm = algorithm ∧ IsDigest count e.digest := by
  obtain ⟨kind, hkind, e, he, halgorithm, hdigest⟩ := h
  refine ⟨_, fullLength_of_resolve hkind hpositive, e, he, halgorithm, ?_⟩
  rw [hdigest]
  exact isDigest_compute kind bytes

/-- Spoilt digests confirm nothing. -/
theorem not_confirmed_of_spoilt {entries : List Manifest.Entry} {bytes : List UInt8}
    {algorithm : Manifest.Algorithm} {kind : DigestKind}
    (hkind : DigestKind.resolve algorithm.name algorithm.keyLength? = some kind)
    (hspoilt : ∀ e ∈ entries, e.algorithm = algorithm → Spoilt (kind.compute bytes) e.digest) :
    ¬ Confirmed entries bytes algorithm := by
  rintro ⟨kind', hkind', e, he, halgorithm, hdigest⟩
  obtain rfl : kind = kind' := Option.some.inj (hkind.symm.trans hkind')
  have hright := hspoilt e he halgorithm
  rw [hdigest] at hright
  exact not_spoilt_compute kind bytes hright

/-- What files that pass have: a manifest that is read from the text, and for each of them
    bytes that confirm every algorithm that is listed for its name. -/
theorem exists_confirmed_of_verify {reader : Reader} {manifestPath : Path} {text : String}
    (hload : reader.manifest manifestPath = Manifest.load manifestPath (.ok text))
    {assets : List Path} (h : verify reader manifestPath assets = .ok ()) :
    ∃ manifest, Manifest.ofText text = .ok manifest ∧ ∀ path ∈ assets, ∃ bytes,
      reader.asset path = .ok bytes ∧ ∀ e ∈ manifest.entriesFor (assetName path),
        Confirmed (manifest.entriesFor (assetName path)) bytes e.algorithm := by
  obtain ⟨manifest, hmanifest, hpasses⟩ := verify_eq_ok_iff.1 h
  refine ⟨manifest, load_eq_ok_iff.1 (hload.symm.trans hmanifest), fun path hpath => ?_⟩
  obtain ⟨bytes, hbytes, hconfirmed⟩ := (hpasses path hpath).confirmed
  refine ⟨bytes, hbytes, fun e he => ?_⟩
  obtain ⟨hmem, hasset⟩ := mem_entriesFor.1 he
  exact hconfirmed e hmem hasset

/-- **Full digests.** For a manifest that is read from a text: if all files pass, then each
    algorithm that is listed for the name of one is listed with a digest of its full length
    in small hexadecimal digits.  And no files pass if an algorithm is listed for the name
    of one with nothing but parts of the right digest, texts that hold more than it, and
    texts of other characters. -/
theorem verify_full_digests (reader : Reader) (manifestPath : Path) (text : String)
    (hload : reader.manifest manifestPath = Manifest.load manifestPath (.ok text))
    (assets : List Path) :
    (verify reader manifestPath assets = .ok () →
      ∃ manifest, Manifest.ofText text = .ok manifest ∧ ∀ path ∈ assets,
        ∀ e ∈ manifest.entriesFor (assetName path), ∃ count, FullLength e.algorithm count ∧
          ∃ f ∈ manifest.entriesFor (assetName path),
            f.algorithm = e.algorithm ∧ IsDigest count f.digest) ∧
    ∀ manifest, Manifest.ofText text = .ok manifest → ∀ path ∈ assets, ∀ bytes,
      reader.asset path = .ok bytes → ∀ e ∈ manifest.entriesFor (assetName path), ∀ kind,
        DigestKind.resolve e.algorithm.name e.algorithm.keyLength? = some kind →
        (∀ f ∈ manifest.entriesFor (assetName path), f.algorithm = e.algorithm →
          Spoilt (kind.compute bytes) f.digest) →
        verify reader manifestPath assets ≠ .ok () := by
  constructor
  · intro hok
    obtain ⟨manifest, hread, hpass⟩ := exists_confirmed_of_verify hload hok
    refine ⟨manifest, hread, fun path hpath e he => ?_⟩
    obtain ⟨bytes, -, hconfirmed⟩ := hpass path hpath
    -- Reading a manifest refuses key lengths of zero.
    have hlisted := Manifest.isListed_of_ofText hread e (mem_entriesFor.1 he).1
    exact exists_isDigest_of_confirmed (hconfirmed e he)
      fun length hlength => (hlisted.keyLength length hlength).1
  · intro manifest hread path hpath bytes hbytes e he kind hkind hspoilt hok
    obtain ⟨manifest', hread', hpass⟩ := exists_confirmed_of_verify hload hok
    obtain rfl : manifest = manifest' := Except.ok.inj (hread.symm.trans hread')
    obtain ⟨bytes', hbytes', hconfirmed⟩ := hpass path hpath
    obtain rfl : bytes = bytes' := Except.ok.inj (hbytes.symm.trans hbytes')
    exact not_confirmed_of_spoilt hkind hspoilt (hconfirmed e he)

/-- The right digest makes up for a part of it, and the part alone is not enough. -/
theorem verify_full_digests_part :
    let sha1 : Manifest.Algorithm := ⟨"SHA1", none⟩
    let right : Manifest.Entry := ⟨sha1, "a9993e364706816aba3e25717850c26c9cd0d89d", "abc.txt"⟩
    let part : Manifest.Entry := ⟨sha1, "a9993e36", "abc.txt"⟩
    let both := "SHA1 A9993E36 abc.txt\nSHA1 A9993E364706816ABA3E25717850C26C9CD0D89D abc.txt"
    let alone := "SHA1 A9993E36 abc.txt"
    let reader (text : String) : Reader :=
      { manifest := fun path => Manifest.load path (.ok text), asset := fun _ => .ok abcBytes }
    let assets : List Path := [⟨"dl/abc.txt"⟩]
    Manifest.ofText both = .ok ⟨[part, right]⟩ ∧
      verify (reader both) ⟨"pkg.hash"⟩ assets = .ok () ∧
      (∃ manifest, Manifest.ofText both = .ok manifest ∧ ∀ path ∈ assets,
        ∀ e ∈ manifest.entriesFor (assetName path), ∃ count, FullLength e.algorithm count ∧
          ∃ f ∈ manifest.entriesFor (assetName path),
            f.algorithm = e.algorithm ∧ IsDigest count f.digest) ∧
      Manifest.ofText alone = .ok ⟨[part]⟩ ∧ Spoilt right.digest part.digest ∧
      verify (reader alone) ⟨"pkg.hash"⟩ assets ≠ .ok () := by
  intro sha1 right part both alone reader assets
  have hname : assetName ⟨"dl/abc.txt"⟩ = "abc.txt" := rfl
  have hkind : DigestKind.resolve "SHA1" none = some .sha1 := by decide
  have hright : right.digest = DigestKind.sha1.compute abcBytes := compute_abcBytes "abc.txt"
  have hboth : Manifest.ofText both = .ok ⟨[part, right]⟩ := by decide
  have halone : Manifest.ofText alone = .ok ⟨[part]⟩ := by decide
  have hspoilt : Spoilt right.digest part.digest :=
    .cut ⟨[], "4706816aba3e25717850c26c9cd0d89d".toList, by decide⟩ (by decide)
  have hok : verify (reader both) ⟨"pkg.hash"⟩ assets = .ok () := by
    have hconfirmed : Confirmed (Manifest.entriesFor ⟨[part, right]⟩ "abc.txt") abcBytes sha1 :=
      ⟨.sha1, hkind, right, mem_entriesFor.2 ⟨by simp, rfl⟩, rfl, hright⟩
    have hpasses : Passes (reader both) ⟨[part, right]⟩ "abc.txt" ⟨"dl/abc.txt"⟩ := by
      refine ⟨⟨part, List.mem_cons_self, rfl⟩, abcBytes, rfl, ?_⟩
      intro e he _
      obtain rfl | rfl : e = part ∨ e = right := by simpa using he
      · exact hconfirmed
      · exact hconfirmed
    refine verify_eq_ok_iff.2 ⟨_, load_eq_ok_iff.2 hboth, fun path hpath => ?_⟩
    obtain rfl : path = ⟨"dl/abc.txt"⟩ := by simpa [assets] using hpath
    rwa [hname]
  have hlisted : part ∈ Manifest.entriesFor ⟨[part]⟩ (assetName ⟨"dl/abc.txt"⟩) :=
    mem_entriesFor.2 ⟨List.mem_cons_self, hname.symm⟩
  refine ⟨hboth, hok, (verify_full_digests (reader both) ⟨"pkg.hash"⟩ both rfl assets).1 hok,
    halone, hspoilt, ?_⟩
  refine (verify_full_digests (reader alone) ⟨"pkg.hash"⟩ alone rfl assets).2 _ halone _
    List.mem_cons_self abcBytes rfl part hlisted .sha1 hkind ?_
  intro f hf _
  obtain rfl : f = part := by simpa using (mem_entriesFor.1 hf).1
  rwa [← hright]

end BillOfMaterials.Verification
