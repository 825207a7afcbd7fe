import DialPass.Lib.Nearest
import DialPass.Telephony.Audio
/-!
# G.711 encoding is to the nearest level (telephony/audio.py:13-52)

`Sorts levels` leaves open how `argsort` orders the two bytes of level 0. On any such table `ulawEncodeWith` is the
library's search, and the two bytes made one.
-/

namespace DialPass

open Nearest

/-- `_LEVELS` with `_LEVEL_TO_BYTE` (audio.py:28), in some order that sorts the levels. -/
structure Sorts (levels : List (Int × UInt8)) : Prop where
  perm : levels.Perm ulawTable
  sorted : levels.Pairwise fun p q => p.1 ≤ q.1

theorem ulawLevels_sorts : Sorts ulawLevels :=
  ⟨List.perm_insertionSort _ _, List.pairwise_insertionSort _ _⟩

/-- `pcm16_to_ulaw` of any integers (audio.py:40). -/
def pcm16ToUlawWith (levels : List (Int × UInt8)) (samples : List Int) : List UInt8 :=
  samples.map (ulawEncodeWith levels)

theorem pcm16ToUlaw_eq (samples : Pcm) : pcm16ToUlaw samples = pcm16ToUlawWith ulawLevels (samples.map Int16.toInt) := by
  rw [pcm16ToUlaw, pcm16ToUlawWith, List.map_map]
  rfl

/-! ## The table -/

variable {levels : List (Int × UInt8)}

theorem mem_ulawTable (b : UInt8) : (ulawDecode b, b) ∈ ulawTable :=
  List.mem_map.2 ⟨b.toNat, List.mem_range.2 b.toNat_lt, by simp⟩

theorem of_mem_ulawTable {p : Int × UInt8} (h : p ∈ ulawTable) : p.1 = ulawDecode p.2 := by
  obtain ⟨i, -, rfl⟩ := List.mem_map.1 h
  rfl

theorem Sorts.length (h : Sorts levels) : levels.length = 256 := by
  rw [h.perm.length_eq, ulawTable, List.length_map, List.length_range]

theorem Sorts.mem_level (h : Sorts levels) (b : UInt8) : ulawDecode b ∈ levels.map Prod.fst :=
  List.mem_map.2 ⟨_, h.perm.mem_iff.2 (mem_ulawTable b), rfl⟩

/-- The bytes in the order of their levels, but for 0x7F. -/
def ascending : List Nat := List.range 127 ++ (List.range 128).map (255 - ·)

/-- Only the two bytes of level 0 share their level. -/
theorem ulawDecode_inj {b c : UInt8} (hb : b ≠ 0x7F) (hc : c ≠ 0x7F) (h : ulawDecode b = ulawDecode c) : b = c := by
  have hchain : (ascending.map fun i => ulawDecode (UInt8.ofNat i)).IsChain (· < ·) := by decide +kernel
  have hnodup : (ascending.map fun i => ulawDecode (UInt8.ofNat i)).Nodup :=
    (List.isChain_iff_pairwise.1 hchain).imp fun hlt => hlt.ne
  have hmem : ∀ d : UInt8, d ≠ 0x7F → d.toNat ∈ ascending := fun d hd => by
    have hlt := d.toNat_lt
    have hne : d.toNat ≠ 127 := fun he => hd (UInt8.toNat_inj.1 he)
    simp only [ascending, List.mem_append, List.mem_range, List.mem_map]
    by_cases hs : d.toNat < 127
    · exact .inl hs
    · exact .inr ⟨255 - d.toNat, by omega, by omega⟩
  exact UInt8.toNat_inj.1 (List.inj_on_of_nodup_map hnodup (hmem b hb) (hmem c hc) (by simpa using h))

theorem ulawDecode_silence : ulawDecode ulawSilence = ulawDecode 0x7F := by decide

theorem ulawDecode_int16 (b : UInt8) : (Int16.ofInt (ulawDecode b)).toInt = ulawDecode b := by
  have h : ∀ i < 256, (Int16.ofInt (ulawDecode (UInt8.ofNat i))).toInt = ulawDecode (UInt8.ofNat i) := by
    decide +kernel
  simpa using h b.toNat b.toNat_lt

theorem clip16_ulawDecode (b : UInt8) : clip16 (ulawDecode b) = ulawDecode b := by
  have h : ∀ i < 256, clip16 (ulawDecode (UInt8.ofNat i)) = ulawDecode (UInt8.ofNat i) := by decide +kernel
  simpa using h b.toNat b.toNat_lt

/-! ## One sample -/

theorem clip16_mono {x y : Int} (h : x ≤ y) : clip16 x ≤ clip16 y :=
  max_le_max le_rfl (min_le_min h le_rfl)

theorem ulawEncodeWith_eq (h : Sorts levels) (sample : Int) : ulawEncodeWith levels sample =
    let chosen := (pick Prod.fst levels (0, ulawSilence) (clip16 sample)).2
    if chosen = 0x7F then ulawSilence else chosen := by
  rw [pick, h.length, apply_ite Prod.snd]
  rfl

theorem ulawEncodeWith_ne (h : Sorts levels) (sample : Int) : ulawEncodeWith levels sample ≠ 0x7F := by
  rw [ulawEncodeWith_eq h]
  dsimp only
  split
  · decide
  · assumption

/-- The level of the byte chosen is nearest to the sample. -/
theorem ulawEncodeWith_isNearest (h : Sorts levels) (sample : Int) :
    IsNearest (levels.map Prod.fst) (clip16 sample) (ulawDecode (ulawEncodeWith levels sample)) := by
  have hne : levels ≠ [] := List.length_pos_iff.1 (by rw [h.length]; decide)
  obtain ⟨hmem, hnear⟩ := pick_isNearest hne h.sorted (0, ulawSilence) (clip16 sample)
  rw [of_mem_ulawTable (h.perm.mem_iff.1 hmem)] at hnear
  rw [ulawEncodeWith_eq h]
  dsimp only
  split
  · rename_i h7f
    rw [ulawDecode_silence, ← h7f]
    exact hnear
  · exact hnear

theorem ulawEncodeWith_ulawDecode (h : Sorts levels) (b : UInt8) :
    ulawEncodeWith levels (ulawDecode b) = if b = 0x7F then 0xFF else b := by
  have hlevel : ulawDecode (ulawEncodeWith levels (ulawDecode b)) = ulawDecode b := by
    have hnear := ulawEncodeWith_isNearest h (ulawDecode b)
    rw [clip16_ulawDecode] at hnear
    exact hnear.self (h.mem_level b)
  have hne := ulawEncodeWith_ne h (ulawDecode b)
  split
  · rename_i hb
    refine ulawDecode_inj hne (by decide) (hlevel.trans ?_)
    rw [hb]
    exact ulawDecode_silence.symm
  · rename_i hb
    exact ulawDecode_inj hne hb hlevel

/-- **`nearestLevel`**: however `argsort` orders equal levels, `pcm16_to_ulaw` makes one byte of each sample, whose
level is nearest to the sample as clipped, the lower one on a tie, and grows with the sample; and what
`ulaw_to_pcm16` decoded it encodes back, with 0xFF for 0x7F. -/
theorem nearestLevel (h : Sorts levels) :
    (∀ samples : List Int, (pcm16ToUlawWith levels samples).length = samples.length ∧
      ∀ k (hk : k < samples.length), ∃ b, (pcm16ToUlawWith levels samples)[k]? = some b ∧
        ∀ c : UInt8, |clip16 samples[k] - ulawDecode b| < |clip16 samples[k] - ulawDecode c| ∨
          (|clip16 samples[k] - ulawDecode b| = |clip16 samples[k] - ulawDecode c| ∧ ulawDecode b ≤ ulawDecode c)) ∧
    (∀ x y, x ≤ y → ulawDecode (ulawEncodeWith levels x) ≤ ulawDecode (ulawEncodeWith levels y)) ∧
    ∀ data : List UInt8, pcm16ToUlawWith levels ((ulawToPcm16 data).map Int16.toInt) =
      data.map fun b => if b = 0x7F then 0xFF else b := by
  refine ⟨fun samples => ⟨List.length_map _, fun k hk => ?_⟩, fun x y hxy => ?_, fun data => ?_⟩
  · refine ⟨ulawEncodeWith levels samples[k], by simp [pcm16ToUlawWith, hk], fun c => ?_⟩
    exact (ulawEncodeWith_isNearest h samples[k]).2 _ (h.mem_level c)
  · exact (ulawEncodeWith_isNearest h x).mono (ulawEncodeWith_isNearest h y) (clip16_mono hxy)
  · rw [pcm16ToUlawWith, ulawToPcm16, List.map_map, List.map_map]
    refine List.map_congr_left fun b _ => ?_
    simp only [Function.comp_apply, ulawDecode_int16]
    exact ulawEncodeWith_ulawDecode h b

theorem nearestLevel_ulawLevels : pcm16ToUlawWith ulawLevels ((ulawToPcm16 [0x00, 0x7F, 0x80]).map Int16.toInt) =
    [0x00, 0xFF, 0x80] :=
  (nearestLevel ulawLevels_sorts).2.2 _

end DialPass
