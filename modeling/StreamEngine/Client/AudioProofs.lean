import StreamEngine.Client.AudioRenderer
import Mathlib.Algebra.Order.Ring.Int

/-! The audio renderer over any calls of its methods. What is open is what the members say, Opus
decodes into a buffer that is large enough, and SDL is given every packet as it was decoded, once
and in order. -/
namespace StreamEngine.Client
namespace Audio
open ByteString Interaction Threads Transition Loop

/-! ### The size of SDL's buffer -/

theorem step_stops {n b : Int} (enough : n ≤ b) : bufSamplesStep n b = .inr (some b) := by
  rw [bufSamplesStep, if_neg (by omega)]

theorem step_doubles {n : Int} {b : Nat} (short : (b : Int) < n) (small : b < 1073741824) :
    bufSamplesStep n b = .inl ((2 * b : Nat) : Int) := by
  rw [bufSamplesStep, if_pos short, if_pos (by omega), Int.bmod_eq_of_le (by omega) (by omega)]
  rfl

/-- The double of 2^30 is not an `int`. -/
theorem run_overflows {n : Int} (large : 1073741824 < n) (fuel : Nat) :
    run (bufSamplesStep n) (fuel + 2) 1073741824 = some none := by
  have doubles : bufSamplesStep n 1073741824 = .inl (-2147483648) := by
    rw [bufSamplesStep, if_pos large, if_pos (by decide)]
    rfl
  have stuck : bufSamplesStep n (-2147483648) = .inr none := by
    rw [bufSamplesStep, if_pos (by omega), if_neg (by decide)]
  rw [run_continue doubles, run_leave stuck]

/-- The loop from a power of two on: it stops at the first one that is large enough. -/
theorem run_from {n : Int} (d : Nat) : ∀ k fuel, k + d = 30 →
    (1073741824 < n → run (bufSamplesStep n) (d + fuel + 2) (2 ^ k : Nat) = some none) ∧
      (n ≤ 1073741824 → ∃ j, k ≤ j ∧ j ≤ 30 ∧ n ≤ (2 ^ j : Nat) ∧
        (∀ i, k ≤ i → i < j → ((2 ^ i : Nat) : Int) < n) ∧
        run (bufSamplesStep n) (d + fuel + 2) (2 ^ k : Nat) = some (some ((2 ^ j : Nat) : Int))) := by
  induction d with
  | zero =>
    rintro k fuel rfl
    refine ⟨fun large => run_overflows large _, fun small => ⟨30, le_rfl, le_rfl, small, ?_, ?_⟩⟩
    · intro i low high
      omega
    · exact run_leave (step_stops small) _
  | succ d ih =>
    intro k fuel here
    have small : 2 ^ k < 1073741824 := Nat.pow_lt_pow_right (by decide) (by omega : k < 30)
    by_cases enough : n ≤ (2 ^ k : Nat)
    · refine ⟨fun large => by omega, fun _ =>
        ⟨k, le_rfl, by omega, enough, fun i low high => by omega, ?_⟩⟩
      exact run_leave (step_stops enough) _
    · have doubles := step_doubles (Int.not_le.mp enough) small
      rw [← Nat.pow_succ'] at doubles
      have next : run (bufSamplesStep n) (d + 1 + fuel + 2) (2 ^ k : Nat) =
          run (bufSamplesStep n) (d + fuel + 2) (2 ^ (k + 1) : Nat) := by
        rw [show d + 1 + fuel + 2 = d + fuel + 2 + 1 by omega]
        exact run_continue doubles _
      rw [next]
      obtain ⟨never, stops⟩ := ih (k + 1) fuel (by omega)
      refine ⟨never, fun held => ?_⟩
      obtain ⟨j, low, high, last, short, ran⟩ := stops held
      refine ⟨j, by omega, high, last, fun i from_k before => ?_, ran⟩
      rcases Nat.eq_or_lt_of_le from_k with rfl | later
      · omega
      · exact short i later before

/-- A power of two as a `Uint16`. -/
theorem uint16_power (k : Nat) :
    ((UInt16.ofInt ((2 ^ k : Nat) : Int)).toNat : Int) = (2 ^ k : Nat) ↔ k ≤ 15 := by
  have value : (UInt16.ofInt ((2 ^ k : Nat) : Int)).toNat = 2 ^ k % 65536 := by
    rw [UInt16.ofInt, UInt16.toNat_ofNat']
    have natural : (((2 ^ k : Nat) : Int) % 2 ^ 16).toNat = 2 ^ k % 65536 := by
      rw [show (2 : Int) ^ 16 = ((65536 : Nat) : Int) from rfl, ← Int.natCast_emod, Int.toNat_natCast]
    rw [natural]
    exact Nat.mod_mod ..
  rw [value, Int.natCast_inj]
  constructor
  · intro same
    by_contra large
    have whole : 2 ^ 16 ∣ 2 ^ k := Nat.pow_dvd_pow 2 (by omega : 16 ≤ k)
    rw [show 65536 = 2 ^ 16 from rfl, Nat.mod_eq_zero_of_dvd whole] at same
    exact absurd same.symm (Nat.pow_pos (by decide)).ne'
  · intro small
    exact Nat.mod_eq_of_lt (Nat.pow_lt_pow_right (by decide) (by omega : k < 16))

theorem bufSamples_spec (n : Int) :
    (1073741824 < n ∧ run (bufSamplesStep n) 32 1024 = some none) ∨
      n ≤ 1073741824 ∧ ∃ k : Nat, 10 ≤ k ∧ n ≤ (2 ^ k : Nat) ∧
        (∀ i, 10 ≤ i → i < k → ((2 ^ i : Nat) : Int) < n) ∧
        run (bufSamplesStep n) 32 1024 = some (some ((2 ^ k : Nat) : Int)) := by
  obtain ⟨never, stops⟩ := run_from (n := n) 20 10 10 rfl
  by_cases large : 1073741824 < n
  · exact .inl ⟨large, never large⟩
  · obtain ⟨k, low, -, rest⟩ := stops (Int.not_lt.mp large)
    exact .inr ⟨Int.not_lt.mp large, k, low, rest⟩

/-- The doubling overflows only above 2^30. -/
theorem bufSamples_none (n : Int) : bufSamples n = none ↔ 1073741824 < n := by
  rcases bufSamples_spec n with ⟨large, ran⟩ | ⟨small, k, -, -, -, ran⟩
  · exact iff_of_true (congrArg Option.join ran) large
  · have value : bufSamples n = some ((2 ^ k : Nat) : Int) := congrArg Option.join ran
    exact iff_of_false (by rw [value]; exact nofun) (Int.not_lt.mpr small)

/-- The loop ends. Above 2^30 it ends in a shift that is not defined, as the doubling has overflowed
`int`. Otherwise its result is the least power of two from 1024 on that holds a frame, and the
`Uint16` that SDL is given is that number up to 32768. -/
theorem bufSamples_least (n : Int) :
    (∃ r, run (bufSamplesStep n) 32 1024 = some r) ∧ (bufSamples n = none ↔ 1073741824 < n) ∧
      ∀ b, bufSamples n = some b → ∃ k : Nat, b = (2 ^ k : Nat) ∧ 10 ≤ k ∧ n ≤ b ∧
        (∀ i, 10 ≤ i → i < k → ((2 ^ i : Nat) : Int) < n) ∧
        (((UInt16.ofInt b).toNat : Int) = b ↔ n ≤ 32768) := by
  rcases bufSamples_spec n with ⟨large, ran⟩ | ⟨-, k, low, enough, short, ran⟩
  · refine ⟨⟨none, ran⟩, bufSamples_none n, fun b value => ?_⟩
    exact nomatch ((bufSamples_none n).mpr large).symm.trans value
  · have value : bufSamples n = some ((2 ^ k : Nat) : Int) := congrArg Option.join ran
    refine ⟨⟨_, ran⟩, bufSamples_none n, fun b same => ?_⟩
    obtain rfl := Option.some.inj (value.symm.trans same)
    refine ⟨k, rfl, low, enough, short, (uint16_power k).trans ⟨fun small => ?_, fun small => ?_⟩⟩
    · have bound : 2 ^ k ≤ 2 ^ 15 := Nat.pow_le_pow_right (by decide) small
      omega
    · by_contra beyond
      have := short 15 (by decide) (by omega)
      omega

/-! ### What a call needs and keeps -/

/-- There is room in `pcm_` for what the decoder writes at once. -/
structure Playable (w : World) : Prop where
  decoder : ∃ p, w.decoder = some p ∧ w.decoders p = some w.channelCount
  channels : 0 < w.channelCount ∧ w.channelCount ≤ 255
  samples : 0 < w.samplesPerFrame ∧ w.samplesPerFrame ≤ 5760
  room : (w.pcm.length : Int) = w.samplesPerFrame * w.channelCount

/-- Where a call may be made: nothing is overwritten while it is open, nothing is used that is
closed, Opus has room for every channel, SDL reads what is there, and no `int` overflows. -/
def Legal : Call → World → Prop
  | .createDecoder _, w => w.decoder = none
  | .openDevice _, w => w.audioDevice = 0 ∧ w.audioSystem ≠ 0
  | .undefinedShift, _ => False
  | .assignPcm size, _ => 0 ≤ size ∧ size < 2147483648
  | .pauseDevice, w => w.devices w.audioDevice ≠ none
  | .decode _ _ frameSize, w => ∃ p channels, w.decoder = some p ∧ w.decoders p = some channels ∧
    0 ≤ frameSize * channels ∧ frameSize * channels ≤ (w.pcm.length : Int)
  | .queueAudio bytes, w => w.devices w.audioDevice ≠ none ∧ 0 ≤ bytes ∧ bytes < 2147483648 ∧
    bytes ≤ 2 * (w.pcm.length : Int)
  | .closeDevice, w => w.devices w.audioDevice ≠ none
  | .destroyDecoder, w => ∃ p, w.decoder = some p ∧ w.decoders p ≠ none
  | .quitAudio, w => w.audioSystem ≠ 0 ∧ w.audioDevice = 0
  | _, _ => True

/-- What SDL reads is the packet that was decoded last, all of it and nothing else, and no packet
from this one on was queued before. A sample has two bytes. -/
def Permit : Call → World → Prop
  | .queueAudio bytes, w => ∃ earlier samples, w.decoded = earlier ++ [samples] ∧
    w.queued.Sublist earlier ∧ samples <+: w.pcm ∧ bytes = 2 * (samples.length : Int)
  | _, _ => True

/-- What every call keeps. What is open is what the members say. -/
structure Owns (w : World) : Prop where
  decoder : ∀ p, w.decoders p ≠ none ↔ w.decoder = some p
  device : ∀ d, w.devices d ≠ none ↔ d ≠ 0 ∧ w.audioDevice = d
  order : w.queued.Sublist w.decoded

variable {w w' : World}

theorem Owns.no_decoder (owns : Owns w) (closed : w.decoder = none) (p : Ptr) : w.decoders p = none := by
  by_contra there
  exact nomatch closed.symm.trans ((owns.decoder p).mp there)

theorem Owns.no_device (owns : Owns w) (closed : w.audioDevice = 0) (d : Nat) : w.devices d = none := by
  by_contra there
  obtain ⟨nonzero, here⟩ := (owns.device d).mp there
  exact nonzero (here.symm.trans closed)

theorem owns_keeps {c : Call} {answer : Answer c} (owns : Owns w) (legal : Legal c w)
    (permitted : Permit c w) (effected : effect c w answer w') : Owns w' := by
  cases c with
  | decoder | audioDevice | channelCount | samplesPerFrame | sdlInited | pcmEmpty =>
    obtain ⟨-, rfl⟩ := effected
    exact owns
  | setConfig | initAudio | setInited | assignPcm | pauseDevice | countPlayed | quitAudio =>
    obtain rfl := effected
    exact { owns with }
  | undefinedShift => exact legal.elim
  | createDecoder config =>
    cases answer with
    | false =>
      obtain rfl := effected
      refine { owns with decoder := fun p => ?_ }
      rw [owns.decoder p, show w.decoder = none from legal]
    | true =>
      obtain ⟨p, free, rfl⟩ := effected
      refine { owns with decoder := fun q => ?_ }
      by_cases same : q = p
      · subst same
        simp
      · simp [Function.update_of_ne same, owns.no_decoder legal q, Ne.symm same]
  | openDevice want =>
    cases answer with
    | false =>
      obtain rfl := effected
      refine { owns with device := fun d => ?_ }
      rw [owns.device d, legal.1]
    | true =>
      obtain ⟨d, nonzero, free, rfl⟩ := effected
      refine { owns with device := fun e => ?_ }
      by_cases same : e = d
      · subst same
        simp [nonzero]
      · simp [Function.update_of_ne same, owns.no_device legal.1 e, Ne.symm same]
  | decode sampleData sampleLength frameSize =>
    rw [effect] at effected
    split at effected
    · obtain ⟨pcm, -, rfl⟩ := effected
      exact { owns with }
    · obtain ⟨-, p, channels, samples, -, -, -, rfl⟩ := effected
      exact { owns with order := owns.order.trans (List.sublist_append_left ..) }
  | queueAudio bytes =>
    cases answer with
    | false =>
      obtain rfl := effected
      exact owns
    | true =>
      obtain rfl := effected
      obtain ⟨earlier, samples, last, order, ⟨rest, filled⟩, rfl⟩ := permitted
      have count : (2 * (samples.length : Int) / 2).toNat = samples.length := by omega
      have taken : w.pcm.take samples.length = samples := by rw [← filled, List.take_left]
      refine { owns with order := ?_ }
      simp only [count, taken, last]
      exact order.append_right _
  | closeDevice =>
    obtain rfl := effected
    refine { owns with device := fun d => ?_ }
    by_cases same : d = w.audioDevice
    · subst same
      simp [eq_comm]
    · have others := owns.device d
      simp only [Ne.symm same, and_false, iff_false, not_not] at others
      simp [Function.update_of_ne same, others, eq_comm]
  | destroyDecoder =>
    obtain ⟨p, here, rfl⟩ := effected
    refine { owns with decoder := fun q => ?_ }
    by_cases same : q = p
    · subst same
      simp
    · have others := owns.decoder q
      rw [here, Option.some_inj] at others
      simpa [Function.update_of_ne same, Ne.symm same] using others

/-- What holds between two methods. -/
structure Rests (w : World) : Prop where
  owns : Owns w
  system : w.audioSystem = if w.sdlInited = true then 1 else 0
  playable : w.audioDevice ≠ 0 → w.sdlInited = true ∧ Playable w
  played : w.framesPlayed = .ofNat w.queued.length

/-! ### The methods -/

def Allowed (c : Call) (w : World) : Prop := Owns w ∧ Legal c w ∧ Permit c w

abbrev Safely {α : Type} (post : α → World → Prop) (p : Code α) (w : World) : Prop :=
  Alone effect Allowed post p w

variable {α : Type} {post : α → World → Prop}

/-- A call is made, and what follows is safe in every world that it may leave. -/
theorem safely_call {c : Call} {next : Answer c → Code α} (owns : Owns w) (legal : Legal c w)
    (permitted : Permit c w)
    (later : ∀ answer w', Owns w' → effect c w answer w' → Safely post (next answer) w') :
    Safely post (access c >>= next) w :=
  alone_call ⟨owns, legal, permitted⟩ fun answer w' effected =>
    later answer w' (owns_keeps owns legal permitted effected) effected

theorem safely_request {c : Call} {post : Answer c → World → Prop} (owns : Owns w) (legal : Legal c w)
    (permitted : Permit c w)
    (later : ∀ answer w', Owns w' → effect c w answer w' → post answer w') :
    Safely post (access c) w :=
  safely_call owns legal permitted fun answer w' owns effected =>
    alone_done (later answer w' owns effected)

/-- The decoder is there and SDL's audio is up. -/
structure Prepared (config : OpusConfig) (w : World) : Prop where
  owns : Owns w
  decoder : ∃ p, w.decoder = some p ∧ w.decoders p = some w.channelCount
  channels : w.channelCount = config.channelCount
  samples : w.samplesPerFrame = config.samplesPerFrame
  silent : w.audioDevice = 0
  inited : w.sdlInited = true
  system : w.audioSystem = 1
  played : w.framesPlayed = .ofNat w.queued.length

theorem frame_bounds {channels samples : Int} (some : 0 < channels) (few : channels ≤ 255)
    (positive : 0 < samples) (most : samples ≤ 5760) :
    0 ≤ samples * channels ∧ samples * channels ≤ 1468800 := by
  constructor
  · exact Int.mul_nonneg positive.le some.le
  · exact Int.mul_le_mul most few some.le (by decide)

/-- What `init` leaves: the device is open if it succeeds. -/
def Inited (rc : Int) (w : World) : Prop := Rests w ∧ (rc = 0 ↔ w.audioDevice ≠ 0)

theorem safely_openDevice {config : OpusConfig} {bufSamples : Int} (usable : config.Usable)
    (prepared : Prepared config w) : Safely Inited (openDevice config bufSamples) w := by
  have here := prepared
  refine safely_call prepared.owns ⟨prepared.silent, by simp [prepared.system]⟩ trivial
    fun opened w' owns effected => ?_
  cases opened with
  | false =>
    obtain rfl := effected
    refine alone_done ⟨⟨owns, ?_, by simp, prepared.played⟩, by simp⟩
    simp [prepared.system, prepared.inited]
  | true =>
    obtain ⟨d, nonzero, -, rfl⟩ := effected
    refine safely_call owns trivial trivial fun _ w' owns effected => ?_
    obtain ⟨rfl, rfl⟩ := effected
    refine safely_call owns trivial trivial fun _ w' owns effected => ?_
    obtain ⟨rfl, rfl⟩ := effected
    obtain ⟨some, few, positive, most⟩ := usable
    rw [← prepared.channels] at some few
    rw [← prepared.samples] at positive most
    have bounds := frame_bounds some few positive most
    have fits : w.samplesPerFrame * w.channelCount < 2147483648 := by omega
    refine safely_call owns ⟨bounds.1, fits⟩ trivial fun _ w' owns effected => ?_
    obtain rfl := effected
    refine safely_call owns ((owns.device d).mpr ⟨nonzero, rfl⟩) trivial fun _ w' owns effected => ?_
    obtain rfl := effected
    refine alone_done ⟨⟨owns, by simp [prepared.system, prepared.inited], fun _ => ⟨prepared.inited,
      prepared.decoder, ⟨some, few⟩, ⟨positive, most⟩, ?_⟩, prepared.played⟩, by simp [nonzero]⟩
    simpa using bounds.1

/-- What is left open by an `init` that fails is closed by `cleanup`. -/
theorem safely_init {opusConfig : Option OpusConfig} (rests : Rests w)
    (ready : Method.ready (.init opusConfig) w) : Safely Inited (init opusConfig) w := by
  obtain ⟨closed, silent, uninited, usable⟩ := ready
  have system : w.audioSystem = 0 := by simpa [uninited] using rests.system
  cases opusConfig with
  | none => exact alone_done ⟨rests, by simp [silent]⟩
  | some config =>
    refine safely_call rests.owns trivial trivial fun _ w' owns effected => ?_
    obtain rfl := effected
    refine safely_call owns closed trivial fun created w' owns effected => ?_
    cases created with
    | false =>
      obtain rfl := effected
      exact alone_done ⟨⟨owns, rests.system, by simp [silent], rests.played⟩, by simp [silent]⟩
    | true =>
      obtain ⟨p, -, rfl⟩ := effected
      refine safely_call owns trivial trivial fun started w' owns effected => ?_
      obtain rfl := effected
      cases started with
      | false =>
        exact alone_done ⟨⟨owns, rests.system, by simp [silent], rests.played⟩, by simp [silent]⟩
      | true =>
        refine safely_call owns trivial trivial fun _ w' owns effected => ?_
        obtain rfl := effected
        have known := usable config rfl
        obtain ⟨bufSamples, value⟩ : ∃ b, bufSamples config.samplesPerFrame = some b := by
          rw [← Option.ne_none_iff_exists']
          intro undefined
          have large := (bufSamples_none _).mp undefined
          have most := known.2.2.2
          omega
        rw [value]
        refine safely_openDevice known ⟨owns, ⟨p, rfl, Function.update_self ..⟩, rfl, rfl, silent, rfl, ?_,
          rests.played⟩
        simp [system]

/-- What was decoded is queued as it was decoded. -/
theorem safely_queue {n : Int} {earlier : List (List Int16)} {samples rest : List Int16} (rests : Rests w)
    (open_ : w.audioDevice ≠ 0) (last : w.decoded = earlier ++ [samples])
    (new : w.queued.Sublist earlier) (filled : w.pcm = samples ++ rest)
    (size : (samples.length : Int) = n * w.channelCount) (few : samples.length ≤ 1468800) :
    Safely (fun _ => Rests) (do
      let bytes := n * (← access .channelCount) * 2
      onlyIf ((← access (.queueAudio bytes)) = true) (access .countPlayed)) w := by
  refine safely_call rests.owns trivial trivial fun _ w' owns effected => ?_
  obtain ⟨rfl, rfl⟩ := effected
  have room : samples.length ≤ w'.pcm.length := by simp [filled]
  refine safely_call owns ⟨(owns.device _).mpr ⟨open_, rfl⟩, by omega, by omega, by omega⟩
    ⟨earlier, samples, last, new, ⟨rest, filled.symm⟩, by omega⟩ fun queued w'' owns effected => ?_
  refine alone_ite (fun held => ?_) fun held => ?_
  · subst held
    obtain rfl := effected
    refine safely_request owns trivial trivial fun _ w'' owns effected => ?_
    obtain rfl := effected
    refine ⟨owns, rests.system, fun sounding => ?_, ?_⟩
    · obtain ⟨inited, playable⟩ := rests.playable sounding
      exact ⟨inited, { playable with }⟩
    rw [List.length_append]
    exact rests.played ▸ (UInt64.ofNat_add _ _).symm
  · obtain rfl : queued = false := by simpa using held
    obtain rfl := effected
    exact alone_done rests

theorem safely_play {sampleData : Bytes} {sampleLength : Int} (rests : Rests w)
    (sounding : w.audioDevice ≠ 0) : Safely (fun _ => Rests) (play sampleData sampleLength) w := by
  obtain ⟨inited, playable⟩ := rests.playable sounding
  obtain ⟨p, here, channels⟩ := playable.decoder
  obtain ⟨some, few⟩ := playable.channels
  obtain ⟨positive, most⟩ := playable.samples
  have bounds := frame_bounds some few positive most
  have room := playable.room
  refine safely_call rests.owns trivial trivial fun _ w' owns effected => ?_
  obtain ⟨rfl, rfl⟩ := effected
  refine safely_call owns ⟨p, w'.channelCount, here, channels, bounds.1, room.ge⟩ trivial
    fun decoded w'' owns effected => ?_
  rw [effect] at effected
  refine alone_ite (fun nothing => ?_) fun something => ?_
  · rw [if_pos nothing] at effected
    obtain ⟨pcm, same, rfl⟩ := effected
    refine alone_done ⟨owns, rests.system, fun _ => ⟨inited, ?_⟩, rests.played⟩
    exact { playable with room := (congrArg Nat.cast same).trans room }
  · rw [if_neg something] at effected
    obtain ⟨within, q, channels', samples, there, found, size, rfl⟩ := effected
    obtain rfl : p = q := Option.some.inj (here.symm.trans there)
    obtain rfl := Option.some.inj (found.symm.trans channels)
    have fits : (samples.length : Int) ≤ w'.pcm.length :=
      size.trans_le ((Int.mul_le_mul_of_nonneg_right within some.le).trans room.ge)
    have length : (samples ++ w'.pcm.drop samples.length).length = w'.pcm.length := by
      rw [List.length_append, List.length_drop]
      omega
    have still : Rests { w' with
        pcm := samples ++ w'.pcm.drop samples.length, decoded := w'.decoded ++ [samples] } :=
      ⟨owns, rests.system, fun _ => ⟨inited, { playable with
        room := (congrArg Nat.cast length).trans room }⟩, rests.played⟩
    exact safely_queue still sounding rfl rests.owns.order rfl size (by omega)

theorem safely_decodeAndPlay {sampleData : Bytes} {sampleLength : Int} (rests : Rests w) :
    Safely (fun _ => Rests) (decodeAndPlay sampleData sampleLength) w := by
  refine safely_call rests.owns trivial trivial fun _ w' owns effected => ?_
  obtain ⟨rfl, rfl⟩ := effected
  refine alone_ite (fun _ => alone_done rests) fun _ => ?_
  refine safely_call owns trivial trivial fun _ w' owns effected => ?_
  obtain ⟨rfl, rfl⟩ := effected
  refine alone_ite (fun _ => alone_done rests) fun sounding => ?_
  refine safely_call owns trivial trivial fun _ w' owns effected => ?_
  obtain ⟨rfl, rfl⟩ := effected
  exact alone_ite (fun _ => alone_done rests) fun _ => safely_play rests sounding

/-- Nothing is open. -/
structure Closed (w : World) : Prop where
  decoder : w.decoder = none
  audioDevice : w.audioDevice = 0
  sdlInited : w.sdlInited = false
  decoders : ∀ p, w.decoders p = none
  devices : ∀ d, w.devices d = none
  audioSystem : w.audioSystem = 0

theorem Rests.silent (rests : Rests w) (owns : Owns { w with audioDevice := 0, devices := devices }) :
    Rests { w with audioDevice := 0, devices := devices } :=
  ⟨owns, rests.system, fun sounding => absurd rfl sounding, rests.played⟩

theorem safely_closeDevice (rests : Rests w) :
    Safely (fun _ w => Rests w ∧ w.audioDevice = 0) closeDevice w := by
  refine safely_call rests.owns trivial trivial fun _ w' owns effected => ?_
  obtain ⟨rfl, rfl⟩ := effected
  refine alone_ite (fun sounding => ?_) fun silent => alone_done ⟨rests, not_not.mp silent⟩
  refine safely_request owns ((owns.device _).mpr ⟨sounding, rfl⟩) trivial fun _ w' owns effected => ?_
  obtain rfl := effected
  exact ⟨rests.silent owns, rfl⟩

theorem safely_destroyDecoder (rests : Rests w) (silent : w.audioDevice = 0) :
    Safely (fun _ w => Rests w ∧ w.audioDevice = 0 ∧ w.decoder = none) destroyDecoder w := by
  refine safely_call rests.owns trivial trivial fun _ w' owns effected => ?_
  obtain ⟨rfl, rfl⟩ := effected
  refine alone_ite (fun there => ?_) fun missing => alone_done ⟨rests, silent, not_not.mp missing⟩
  obtain ⟨p, here⟩ := Option.ne_none_iff_exists'.mp there
  refine safely_request owns ⟨p, here, (owns.decoder p).mpr here⟩ trivial fun _ w' owns effected => ?_
  obtain ⟨q, -, rfl⟩ := effected
  exact ⟨⟨owns, rests.system, fun sounding => absurd silent sounding, rests.played⟩, silent, rfl⟩

/-- Whatever was opened is closed. -/
theorem safely_cleanup (rests : Rests w) : Safely (fun _ w => Rests w ∧ Closed w) cleanup w := by
  refine alone_bind (safely_closeDevice rests) fun _ w' here => ?_
  obtain ⟨rests, silent⟩ := here
  refine alone_bind (safely_destroyDecoder rests silent) fun _ w' here => ?_
  obtain ⟨rests, silent, missing⟩ := here
  have system := rests.system
  refine safely_call rests.owns trivial trivial fun inited w' owns effected => ?_
  obtain ⟨rfl, rfl⟩ := effected
  refine alone_ite (fun inited => ?_) fun uninited => ?_
  · rw [inited] at system
    refine safely_request owns ⟨by simp [system], silent⟩ trivial fun _ w' owns effected => ?_
    obtain rfl := effected
    refine ⟨⟨owns, by simp [system], fun sounding => absurd silent sounding, rests.played⟩, missing,
      silent, rfl, owns.no_decoder missing, owns.no_device silent, ?_⟩
    simp [system]
  · have uninited : w'.sdlInited = false := by simpa using uninited
    rw [uninited] at system
    exact alone_done ⟨rests, missing, silent, uninited, owns.no_decoder missing, owns.no_device silent,
      system⟩

/-! ### Whole runs -/

def outline : Outline renderer where
  allowed _ := Allowed
  guarantee _ _ _ := True
  entry m w := Rests w ∧ m.ready w
  follows _ _ := False
  rests _ := Rests
  post
    | .init _, .code rc, w => Inited rc w
    | .cleanup, .void, w => Closed w
    | .init _, _, _ | .cleanup, _, _ => False
    | .decodeAndPlay .., _, _ => True

variable {m : Method}

/-- A method ends after its program. -/
theorem method_round {program : Code α} {result : α → Result}
    (ends : ∀ a w, post a w → Rests w ∧ outline.post m (result a) w) (safe : Safely post program w) :
    outline.Round m (program >>= fun a => pure (.result (result a))) w := by
  have bound : Safely (outline.ends m) (program >>= fun a => pure (.result (result a))) w :=
    alone_bind safe fun a w' held => alone_done (ends a w' held)
  exact outline.round_alone (fun _ => id) bound

theorem verified : outline.Verified where
  enters m w rests ready := ⟨rests, ready⟩
  rounds m w entry := by
    obtain ⟨rests, ready⟩ := entry
    cases m with
    | init opusConfig =>
      have ends : ∀ rc w, Inited rc w → Rests w ∧ outline.post (.init opusConfig) (.code rc) w :=
        fun rc w held => ⟨held.1, held⟩
      exact method_round ends (safely_init rests ready)
    | decodeAndPlay sampleData sampleLength =>
      have ends : ∀ (_ : Unit) w, Rests w →
          Rests w ∧ outline.post (.decodeAndPlay sampleData sampleLength) .void w :=
        fun _ w held => ⟨held, trivial⟩
      exact method_round ends (safely_decodeAndPlay rests)
    | cleanup =>
      have ends : ∀ (_ : Unit) w, Rests w ∧ Closed w → Rests w ∧ outline.post .cleanup .void w :=
        fun _ w held => held
      exact method_round ends (safely_cleanup rests)
  follows _ _ := False.elim
  keeps _ _ _ _ _ _ _ := trivial
  stable _ _ other := absurd rfl other

theorem rests_fresh (t : Unit) : outline.rests t World.fresh := by
  refine ⟨⟨?_, ?_, List.Sublist.refl _⟩, rfl, fun sounding => absurd rfl sounding, rfl⟩
  · simp [World.fresh]
  · simp +contextual [World.fresh, eq_comm]

abbrev State := System Unit World Call Answer Method Result
abbrev Move := Label Unit Call Answer Method Result

/-- The renderer from its construction. -/
abbrev RunsTo (labels : List Move) (s : State) : Prop :=
  Run (Threads.Step renderer) (System.fresh World.fresh) labels s

variable {labels : List Move} {s s' : State} {r : Result}

theorem runs_sound (run : RunsTo labels s) : outline.Sound s := Outline.Sound.run verified rests_fresh run

/-- A packet is decoded. -/
theorem decodes (samples : List Int16) {n frameSize channels : Int} {p : Ptr} {sampleData : Bytes}
    {sampleLength : Int} (something : ¬ n ≤ 0) (within : n ≤ frameSize) (here : w.decoder = some p)
    (found : w.decoders p = some channels) (size : (samples.length : Int) = n * channels) :
    effect (.decode sampleData sampleLength frameSize) w n
      { w with pcm := samples ++ w.pcm.drop samples.length, decoded := w.decoded ++ [samples] } := by
  rw [effect, if_neg something]
  exact ⟨within, p, channels, samples, here, found, size, rfl⟩

/-- Two channels are open, and these packets have been played. -/
def World.playing (pcm : List Int16) (framesPlayed : UInt64) (packets : List (List Int16)) : World where
  decoder := some 0
  audioDevice := 1
  channelCount := 2
  samplesPerFrame := 240
  sdlInited := true
  pcm := pcm
  framesPlayed := framesPlayed
  decoders := Function.update (fun _ => none) 0 (some 2)
  devices := Function.update (fun _ => none) 1 (some ⟨48000, 2, 1024⟩)
  audioSystem := 1
  decoded := packets
  queued := packets

/-- The renderer after one packet. -/
abbrev World.played : World := .playing ([1, 2] ++ (List.replicate 480 0).drop 2) 1 [[1, 2]]

theorem played_run : ∃ labels, RunsTo labels (System.fresh World.played) := by
  have inits : Evaluates effect (body (.init (some ⟨48000, 2, 1, 1, 240, []⟩))) World.fresh
      (.result (.code 0)) (World.playing (List.replicate 480 0) 0 []) := by
    apply answers () rfl
    apply answers true ⟨0, rfl, rfl⟩
    apply answers true rfl
    apply answers () rfl
    apply answers true ⟨1, by decide, rfl, rfl⟩
    apply answers _ ⟨rfl, rfl⟩
    apply answers _ ⟨rfl, rfl⟩
    apply answers () rfl
    apply answers () rfl
    apply Evaluates.done
  have plays : Evaluates effect (body (.decodeAndPlay [] 0)) (World.playing (List.replicate 480 0) 0 [])
      (.result .void) World.played := by
    apply answers _ ⟨rfl, rfl⟩
    apply answers _ ⟨rfl, rfl⟩
    apply answers _ ⟨rfl, rfl⟩
    apply answers _ ⟨rfl, rfl⟩
    apply answers _ (decodes [1, 2] (n := 1) (by decide) (by decide) rfl rfl rfl)
    apply answers _ ⟨rfl, rfl⟩
    apply answers true rfl
    apply answers () rfl
    apply Evaluates.done
  have usable : ∀ config : OpusConfig, some ⟨48000, 2, 1, 1, 240, []⟩ = some config → config.Usable := by
    rintro config ⟨⟩
    exact ⟨by decide, by decide, by decide, by decide⟩
  have built : RunsTo _ _ := .start
  obtain ⟨_, first⟩ := returned_run (Method.init _) built ⟨rfl, rfl, rfl, usable⟩ (.result inits)
  exact returned_run (Method.decodeAndPlay [] 0) first trivial (.result plays)

theorem played_cleans : ∃ cleaned,
    Evaluates effect (body .cleanup) World.played (.result .void) cleaned := by
  apply Exists.intro
  apply answers _ ⟨rfl, rfl⟩
  apply answers () rfl
  apply answers _ ⟨rfl, rfl⟩
  apply answers () ⟨0, rfl, rfl⟩
  apply answers _ ⟨rfl, rfl⟩
  apply answers () rfl
  apply Evaluates.done

/-- Whatever Opus and SDL answer, a call is made only where it may be: Opus decodes into a buffer with
room for a whole packet of every channel, and SDL reads the packet that was decoded last and no more. -/
theorem every_audio_call_legal {c : Call} {next} (run : RunsTo labels s)
    (here : s.activity () = .inside m (.call c next)) : Legal c s.world ∧ Permit c s.world :=
  ((runs_sound run).allowed here).2

/-- The second of two packets is queued. -/
theorem every_audio_call_legal_queue : ∃ labels s next, RunsTo labels s ∧
    s.activity () = .inside (.decodeAndPlay [] 0) (.call (.queueAudio 4) next) ∧
      s.world.queued = [[1, 2]] ∧ s.world.decoded = [[1, 2], [3, 4]] ∧
      Legal (.queueAudio 4) s.world ∧ Permit (.queueAudio 4) s.world := by
  obtain ⟨_, played⟩ := played_run
  have queues : ∃ next w, Advances effect (body (.decodeAndPlay [] 0)) World.played
      (.call (.queueAudio 4) next) w ∧ w.queued = [[1, 2]] ∧ w.decoded = [[1, 2], [3, 4]] := by
    apply Exists.intro
    apply Exists.intro
    constructor
    · apply Advances.call _ ⟨rfl, rfl⟩
      apply Advances.call _ ⟨rfl, rfl⟩
      apply Advances.call _ ⟨rfl, rfl⟩
      apply Advances.call _ ⟨rfl, rfl⟩
      apply Advances.call _ (decodes [3, 4] (n := 1) (by decide) (by decide) rfl rfl rfl)
      apply Advances.call _ ⟨rfl, rfl⟩
      exact .here
    · exact ⟨rfl, rfl⟩
  obtain ⟨next, w, advances, queued, decoded⟩ := queues
  obtain ⟨labels, s, run, rfl, here⟩ := advancing_run (Method.decodeAndPlay [] 0) played trivial advances
  exact ⟨labels, s, next, run, here, queued, decoded, every_audio_call_legal run here⟩

/-- SDL is given packets as they were decoded, in order and each at most once, and the counter is that
of the packets it took. -/
theorem packets_in_order (run : RunsTo labels s) :
    s.world.queued.Sublist s.world.decoded ∧
      (s.activity () = .idle → s.world.framesPlayed = .ofNat s.world.queued.length) := by
  refine ⟨?_, fun idle => ((runs_sound run).idle () idle).played⟩
  have owned : Owns s.world := Outline.keeps_run verified rests_fresh Owns (rests_fresh ()).owns
    (fun _ _ _ _ _ allowed effected owns => owns_keeps owns allowed.2.1 allowed.2.2 effected) run
  exact owned.order

theorem packets_in_order_one : ∃ labels s, RunsTo labels s ∧ s.world.queued = [[1, 2]] ∧
    s.world.queued.Sublist s.world.decoded ∧
      (s.activity () = .idle → s.world.framesPlayed = .ofNat s.world.queued.length) := by
  obtain ⟨labels, run⟩ := played_run
  exact ⟨labels, _, run, rfl, packets_in_order run⟩

/-- `init` returns 0 just if it leaves a device open, and whatever it leaves, `cleanup` closes: the
device, the decoder and SDL's audio. -/
theorem audio_balanced (run : RunsTo labels s) :
    (∀ opusConfig rc, Threads.Step renderer s (.returned (.init opusConfig) (.code rc)) s' →
      (rc = 0 ↔ s'.world.audioDevice ≠ 0)) ∧
    (Threads.Step renderer s (.returned .cleanup r) s' → Closed s'.world) := by
  have sound := runs_sound run
  constructor
  · intro opusConfig rc step
    cases step with
    | returned here => exact (sound.post here).2
  · intro step
    cases step with
    | returned here =>
      have post := sound.post here
      cases r with
      | void => exact post
      | code => exact post.elim

theorem audio_balanced_one : ∃ labels s s', RunsTo labels s ∧
    Threads.Step renderer s (.returned .cleanup .void) s' ∧
      (∀ opusConfig rc, Threads.Step renderer s (.returned (.init opusConfig) (.code rc)) s' →
        (rc = 0 ↔ s'.world.audioDevice ≠ 0)) ∧ Closed s'.world := by
  obtain ⟨_, run⟩ := played_run
  obtain ⟨cleaned, cleans⟩ := played_cleans
  obtain ⟨labels, s, s', run, -, step⟩ := returning_run Method.cleanup run trivial cleans
  exact ⟨labels, s, s', run, step, (audio_balanced (r := .void) run).1, (audio_balanced run).2 step⟩

end Audio
end StreamEngine.Client
