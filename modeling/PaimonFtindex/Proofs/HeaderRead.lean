/-
What `read_header` asks of its input, and what it has checked when it
returns.
-/
import PaimonFtindex.Model.Storage
import PaimonFtindex.Proofs.Envelope

namespace PaimonFtindex.Proofs

open Model Lib

/-- The header length in the fixed part. -/
def headerLength (fixed : Bytes) : Nat :=
  (fromBeBytes (slice fixed 12 4)).toNat

/-- The fixed part passes its checks. -/
structure FixedOk (fixed : Bytes) : Prop where
  magic : fixed.take 8 = formatMagic
  version : fromBeBytes (slice fixed 8 4) = formatVersion
  length : headerLength fixed ≤ maxHeaderBytes

/-- A header was read: both reads went well and every check passed. -/
theorem readHeader_eq_ok {serde : HeaderJson} {input : SeekRead}
    {header : IndexHeader} {bodyStart : UInt64}
    (h : readHeader serde input = .ok (header, bodyStart)) :
    ∃ fixed json, readExactAt input 0 16 = .ok fixed ∧ FixedOk fixed
      ∧ readExactAt input 16 (headerLength fixed) = .ok json
      ∧ serde.fromSlice json = .ok header
      ∧ validateHeader header = .ok ()
      ∧ bodyStart = 16 + UInt64.ofNat (headerLength fixed) := by
  unfold readHeader at h
  rw [except_bind_eq_ok] at h
  obtain ⟨fixed, hfixed, h⟩ := h
  refine ⟨fixed, ?_⟩
  by_cases hmagic : fixed.take 8 = formatMagic
  · by_cases hversion : fromBeBytes (slice fixed 8 4) = formatVersion
    · by_cases hlong : maxHeaderBytes < headerLength fixed
      · unfold headerLength at hlong
        simp only [hmagic, hversion, hlong, ne_eq, not_true_eq_false, if_false,
          if_true, except_bind_eq_ok] at h
        obtain ⟨_, hthrow, -⟩ := h
        cases hthrow
      · have hlong' := hlong
        unfold headerLength at hlong
        simp only [hmagic, hversion, hlong, ne_eq, not_true_eq_false, if_false,
          except_bind_eq_ok] at h
        obtain ⟨json, hjson, h⟩ := h
        cases hdecode : serde.fromSlice json with
        | error e =>
            rw [hdecode] at h
            cases h
        | ok decoded =>
            simp only [hdecode, pure_bind, except_bind_eq_ok] at h
            obtain ⟨_, hvalid, h⟩ := h
            cases h
            exact ⟨json, hfixed, ⟨hmagic, hversion, Nat.not_lt.mp hlong'⟩,
              hjson, hdecode, hvalid, rfl⟩
    · simp only [hmagic, hversion, ne_eq, not_true_eq_false, not_false_eq_true,
        if_false, if_true, except_bind_eq_ok] at h
      obtain ⟨_, hthrow, -⟩ := h
      cases hthrow
  · simp only [hmagic, ne_eq, not_false_eq_true, if_true,
      except_bind_eq_ok] at h
    obtain ⟨_, hthrow, -⟩ := h
    cases hthrow

/-- A read of an immutable input is the slice of its bytes. -/
theorem readExactAt_of_immutable {input : SeekRead} {data : Bytes}
    (himmutable : input.Immutable data) {pos : UInt64} {len : Nat}
    {bytes : Bytes} (h : readExactAt input pos len = .ok bytes) :
    pos.toNat + len ≤ data.length ∧ bytes = slice data pos.toNat len := by
  unfold readExactAt at h
  cases hread : input.pread [⟨pos, len⟩] with
  | error e =>
      rw [hread] at h
      cases h
  | ok bufs =>
      rw [hread] at h
      cases h
      rcases himmutable _ _ hread with _ | ⟨hbuf, hrest⟩
      cases hrest
      simpa using hbuf

/-- Over a prefix of an archive, the header is the archive's. -/
theorem readHeader_of_prefixed {serde : HeaderJson} {input : SeekRead}
    {json body : Bytes} (hlen : json.length ≤ maxHeaderBytes) {n : Nat}
    (himmutable :
      input.Immutable ((envelopePrefix json ++ json ++ body).take n))
    {header : IndexHeader} {bodyStart : UInt64}
    (h : readHeader serde input = .ok (header, bodyStart)) :
    serde.fromSlice json = .ok header
      ∧ bodyStart = 16 + UInt64.ofNat json.length := by
  obtain ⟨fixed, read, hfixed, -, hread, hdecode, -, rfl⟩ := readHeader_eq_ok h
  have hmax : maxHeaderBytes = 16777216 := rfl
  obtain ⟨hfit, hfixed⟩ := readExactAt_of_immutable himmutable hfixed
  obtain ⟨hfit', hread⟩ := readExactAt_of_immutable himmutable hread
  have hfixed : fixed = envelopePrefix json := by
    have hslice := slice_append_mid [] (envelopePrefix json) (json ++ body)
    rw [List.nil_append, ← List.append_assoc, envelopePrefix_length] at hslice
    rw [hfixed, slice_of_prefix (slice_length hfit)]
    exact hslice
  have hlength : headerLength fixed = json.length := by
    rw [hfixed]
    unfold headerLength
    show (fromBeBytes (toBeBytes (UInt32.ofNat json.length))).toNat = _
    rw [fromBeBytes_toBeBytes, UInt32.toNat_ofNat']
    omega
  rw [hlength] at hread ⊢
  refine ⟨?_, rfl⟩
  have hjson : read = json := by
    have hslice := slice_append_mid (envelopePrefix json) json body
    rw [envelopePrefix_length] at hslice
    rw [hlength] at hfit'
    rw [hread, slice_of_prefix (slice_length hfit')]
    exact hslice
  rw [← hjson]
  exact hdecode

end PaimonFtindex.Proofs
