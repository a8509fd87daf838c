import Modelark.StreamZnn.RoundTrip
import Modelark.Planning.Budgets

/-!
# Output caps

A compressor with an output cap writes the same container as one without, or nothing. The cap that is
planned for a file always suffices where no slice expands.
-/

namespace Modelark.StreamZnn

open Library

variable {codec : Codec} {chunkBytes limit : Nat}

theorem writeFrame_capped {written : Nat} {slice out : Bytes} :
    writeFrame codec (some limit) written slice = .ok out ↔
      writeFrame codec none written slice = .ok out ∧
        (codec.compress slice).length ≤ slice.length ∧ written + out.length ≤ limit := by
  have whole : ∀ head : Bytes, pack (codec.compress slice).length = .ok head → head.length = 4 := by
    intro head packs
    unfold pack at packs
    split_ifs at packs
    cases packs
    rfl
  simp only [writeFrame, bind_eq_ok, require_eq_ok]
  constructor
  · rintro ⟨_, small, _, expands, _, fits, head, packs, made⟩
    cases made
    refine ⟨⟨(), small, (), rfl, (), rfl, head, packs, rfl⟩, by simpa using expands, ?_⟩
    simpa [whole head packs] using fits
  · rintro ⟨⟨_, small, _, _, _, _, head, packs, made⟩, expands, fits⟩
    cases made
    refine ⟨(), small, (), by simpa using expands, (), ?_, head, packs, rfl⟩
    simpa [whole head packs] using fits

theorem thread_capped {out result : Bytes} {chunks : List Bytes} (starts : out.length ≤ limit) :
    thread (fun out chunk => do
        let frame ← writeFrame codec (some limit) out.length chunk
        return out ++ frame) out chunks = .ok result ↔
      thread (fun out chunk => do
          let frame ← writeFrame codec none out.length chunk
          return out ++ frame) out chunks = .ok result ∧
        (∀ slice ∈ chunks, (codec.compress slice).length ≤ slice.length) ∧ result.length ≤ limit := by
  induction chunks generalizing out with
  | nil =>
      simp only [thread_nil, Except.ok.injEq, List.not_mem_nil, false_implies, implies_true, true_and]
      constructor
      · rintro rfl
        exact ⟨rfl, starts⟩
      · exact And.left
  | cons slice chunks ih =>
      simp only [thread_cons, bind_eq_ok, List.forall_mem_cons]
      constructor
      · rintro ⟨_, ⟨next, wrote, made⟩, rest⟩
        cases made
        obtain ⟨free, shrinks, fits⟩ := writeFrame_capped.mp wrote
        obtain ⟨others, all, bound⟩ := (ih (by simpa using fits)).mp rest
        exact ⟨⟨_, ⟨next, free, rfl⟩, others⟩, ⟨shrinks, all⟩, bound⟩
      · rintro ⟨⟨_, ⟨next, free, made⟩, rest⟩, ⟨shrinks, all⟩, bound⟩
        cases made
        -- what is written so far is a part of the result
        have part : (out ++ next).length ≤ limit := by
          rw [(thread_frames rest).2, List.length_append] at bound
          omega
        refine ⟨_, ⟨next, writeFrame_capped.mpr ⟨free, shrinks, ?_⟩, rfl⟩, ?_⟩
        · simpa using part
        · exact (ih part).mpr ⟨rest, all, bound⟩

/-- A cap refuses what expands and what exceeds it, and changes nothing else. -/
theorem compress_capped {bytes written : Bytes} :
    compress codec chunkBytes (some limit) bytes = .ok written ↔
      compress codec chunkBytes none bytes = .ok written ∧
        (∀ slice ∈ slices chunkBytes bytes, (codec.compress slice).length ≤ slice.length) ∧
        written.length ≤ limit := by
  simp only [compress, bind_eq_ok, require_eq_ok]
  constructor
  · rintro ⟨_, cuts, _, starts, rest⟩
    obtain ⟨free, all, bound⟩ := (thread_capped (by simpa using starts)).mp rest
    exact ⟨⟨(), cuts, (), rfl, free⟩, all, bound⟩
  · rintro ⟨⟨_, cuts, _, _, free⟩, all, bound⟩
    have starts : magic.length ≤ limit := by
      rw [(thread_frames free).2, List.length_append] at bound
      omega
    exact ⟨(), cuts, (), by simpa using starts, (thread_capped starts).mpr ⟨free, all, bound⟩⟩

theorem slices_length (bytes : Bytes) (cuts : 0 < chunkBytes) :
    (slices chunkBytes bytes).length = (bytes.length + chunkBytes - 1) / chunkBytes := by
  fun_induction slices chunkBytes bytes with
  | case1 bytes more ih =>
      have pos := List.length_pos_of_ne_nil more.2
      rw [List.length_cons, ih, List.length_drop]
      by_cases last : bytes.length ≤ chunkBytes
      · rw [Nat.sub_eq_zero_of_le last, Nat.div_eq_of_lt (by omega),
          show bytes.length + chunkBytes - 1 = bytes.length - 1 + chunkBytes by omega,
          Nat.add_div_right _ cuts, Nat.div_eq_of_lt (by omega)]
      · rw [show bytes.length + chunkBytes - 1 = bytes.length - chunkBytes + chunkBytes - 1 + chunkBytes
          by omega, Nat.add_div_right _ cuts]
  | case2 bytes last =>
      have empty : bytes = [] := by
        by_contra some
        exact last ⟨Nat.pos_iff_ne_zero.mp cuts, some⟩
      rw [empty, List.length_nil, List.length_nil, Nat.div_eq_of_lt (by omega)]

theorem frames_length_le {slices : List Bytes}
    (shrinks : ∀ slice ∈ slices, (codec.compress slice).length ≤ slice.length) :
    ((slices.map (frame codec)).flatten).length ≤ slices.flatten.length + 4 * slices.length := by
  induction slices with
  | nil => simp
  | cons slice slices ih =>
      have rest := ih fun slice member => shrinks slice (List.mem_cons_of_mem _ member)
      have first := shrinks slice List.mem_cons_self
      simp only [List.map_cons, List.flatten_cons, List.length_append, List.length_cons, frame,
        packed_length]
      omega

/-- The planned cap suffices for every container whose slices do not expand: the number of slices of a file below
    `2 ^ 53` bytes is not rounded. -/
theorem compress_planned {bytes written : Bytes} (small : bytes.length < 2 ^ 53)
    (wrote : compress codec chunkBytes none bytes = .ok written)
    (shrinks : ∀ slice ∈ slices chunkBytes bytes, (codec.compress slice).length ≤ slice.length) :
    compress codec chunkBytes (some (Planning.codecOutputCap bytes.length .stream chunkBytes)) bytes =
      .ok written := by
  refine compress_capped.mpr ⟨wrote, shrinks, ?_⟩
  obtain ⟨cuts, _, rfl⟩ := compress_eq_ok wrote
  have bound := frames_length_le shrinks
  rw [slices_flatten bytes cuts, slices_length bytes cuts] at bound
  simp only [container, List.length_append, Planning.codecOutputCap]
  rw [ceilQuotient_eq small cuts]
  omega

/-- The planned cap refuses a file when one of its slices expands, and never else. -/
theorem planned_cap_iff (codec : Codec) (chunkBytes : Nat) (bytes written : Bytes) (small : bytes.length < 2 ^ 53) :
    compress codec chunkBytes (some (Planning.codecOutputCap bytes.length .stream chunkBytes)) bytes = .ok written ↔
      compress codec chunkBytes none bytes = .ok written ∧
        ∀ slice ∈ slices chunkBytes bytes, (codec.compress slice).length ≤ slice.length := by
  constructor
  · intro capped
    obtain ⟨wrote, shrinks, _⟩ := compress_capped.mp capped
    exact ⟨wrote, shrinks⟩
  · rintro ⟨wrote, shrinks⟩
    exact compress_planned small wrote shrinks

/-- Of forty zeros only the header is written. -/
def zeroCodec : Codec where
  compress slice := if slice = List.replicate 40 0 then rawHeader 40 else rawHeader slice.length ++ slice
  decompress blob :=
    if blob.take 2 = [0x5A, 0x4E] then .ok (if blob.length = 32 then List.replicate 40 0 else blob.drop 32)
    else .error .codec
  inverse slice some := by
    by_cases zeros : slice = List.replicate 40 0
    · rw [if_pos zeros, zeros]
      rfl
    · rw [if_neg zeros]
      simp [rawHeader, packed64, packed, some]
  nonempty slice _ := by
    split_ifs <;> simp [rawHeader]

theorem slices_zeros : slices 40 (List.replicate 80 0 : Bytes) = [List.replicate 40 0, List.replicate 40 0] := by
  simp [slices]

theorem slices_more :
    slices 40 (List.replicate 80 0 ++ [7] : Bytes) = [List.replicate 40 0, List.replicate 40 0, [7]] := by
  simp [slices]

/-- Eighty zeros fit their planned cap, and with one more byte they do not. -/
theorem sample_planned :
    compress zeroCodec 40 (some (Planning.codecOutputCap 80 .stream 40)) (List.replicate 80 0) =
        .ok (container zeroCodec [List.replicate 40 0, List.replicate 40 0]) ∧
      ∀ written, compress zeroCodec 40 (some (Planning.codecOutputCap (List.replicate 80 0 ++ [7]).length .stream 40))
        (List.replicate 80 0 ++ [7]) ≠ .ok written := by
  refine ⟨?_, fun written capped => ?_⟩
  · refine (planned_cap_iff zeroCodec 40 (List.replicate 80 0) _ (by decide)).mpr ⟨?_, ?_⟩
    · rw [compress, slices_zeros]
      rfl
    · rw [slices_zeros]
      decide
  · have shrinks := ((planned_cap_iff zeroCodec 40 (List.replicate 80 0 ++ [7]) written (by decide)).mp capped).2
    rw [slices_more] at shrinks
    exact absurd (shrinks [7] (by simp)) (by decide)

end Modelark.StreamZnn
