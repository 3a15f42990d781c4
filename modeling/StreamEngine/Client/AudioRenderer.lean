import StreamEngine.Library.ByteString
import StreamEngine.Library.Loop
import StreamEngine.Library.Threads

/-! The audio renderer. moonlight calls `init` while a connection is set up, then `decode_and_play`
on its audio thread, and the worker calls `cleanup` once that thread has stopped, so that the
calls come one after another. Opus and SDL may answer as they like. -/
namespace StreamEngine.Client
open ByteString

namespace Audio
open Interaction Threads

abbrev Ptr := Nat

/-- `OPUS_MULTISTREAM_CONFIGURATION`. -/
structure OpusConfig where
  sampleRate : Int
  channelCount : Int
  streams : Int
  coupledStreams : Int
  samplesPerFrame : Int
  mapping : Bytes

/-- What `SDL_OpenAudioDevice` is asked for. -/
structure AudioSpec where
  freq : Int
  channels : UInt8
  samples : UInt16

/-- One round of the loop that doubles `bufSamples`, an `int`: the double of 2^30 is negative, and
a negative one must not be shifted. -/
def bufSamplesStep (samplesPerFrame bufSamples : Int) : Int ⊕ Option Int :=
  if bufSamples < samplesPerFrame then
    if 0 ≤ bufSamples then .inl ((2 * bufSamples).bmod 4294967296) else .inr none
  else .inr (some bufSamples)

/-- `none` where the shift is undefined. -/
def bufSamples (samplesPerFrame : Int) : Option Int :=
  (Loop.run (bufSamplesStep samplesPerFrame) 32 1024).join

/-- The members, the decoders that exist with their channels, the open devices, the references to
SDL's audio, and the samples of each packet, as they were decoded and as they were queued. -/
structure World where
  decoder : Option Ptr
  audioDevice : Nat
  channelCount : Int
  samplesPerFrame : Int
  sdlInited : Bool
  pcm : List Int16
  framesPlayed : UInt64
  decoders : Ptr → Option Int
  devices : Nat → Option AudioSpec
  audioSystem : Nat
  decoded : List (List Int16)
  queued : List (List Int16)

def World.fresh : World where
  decoder := none
  audioDevice := 0
  channelCount := 0
  samplesPerFrame := 0
  sdlInited := false
  pcm := []
  framesPlayed := 0
  decoders := fun _ => none
  devices := fun _ => none
  audioSystem := 0
  decoded := []
  queued := []

/-- The calls, those that open or close something with the member they assign. -/
inductive Call where
  | decoder
  | audioDevice
  | channelCount
  | samplesPerFrame
  | sdlInited
  | pcmEmpty
  | setConfig (channelCount samplesPerFrame : Int)
  | createDecoder (config : OpusConfig)
  | initAudio
  | setInited
  | undefinedShift
  | openDevice (want : AudioSpec)
  | assignPcm (size : Int)
  | pauseDevice
  | decode (sampleData : Bytes) (sampleLength frameSize : Int)
  | queueAudio (bytes : Int)
  | countPlayed
  | closeDevice
  | destroyDecoder
  | quitAudio

abbrev Answer : Call → Type
  | .decoder => Option Ptr
  | .audioDevice => Nat
  | .channelCount | .samplesPerFrame | .decode .. => Int
  | .sdlInited | .pcmEmpty | .createDecoder _ | .initAudio | .openDevice _ | .queueAudio _ => Bool
  | _ => Unit

inductive Method where
  | init (opusConfig : Option OpusConfig)
  | decodeAndPlay (sampleData : Bytes) (sampleLength : Int)
  | cleanup

inductive Result where
  | code (rc : Int)
  | void

abbrev Code := Program Call Answer

abbrev access (c : Call) : Code (Answer c) := request c

/-- `init` from the SDL device on. -/
def openDevice (config : OpusConfig) (bufSamples : Int) : Code Int := do
  let want : AudioSpec :=
    ⟨config.sampleRate, UInt8.ofInt config.channelCount, UInt16.ofInt bufSamples⟩
  if (← access (.openDevice want)) = false then return -1
  access (.assignPcm ((← access .samplesPerFrame) * (← access .channelCount)))
  access .pauseDevice
  return 0

def init : Option OpusConfig → Code Int
  | none => return -1
  | some config => do
    access (.setConfig config.channelCount config.samplesPerFrame)
    if (← access (.createDecoder config)) = false then return -1
    if (← access .initAudio) = false then return -1
    access .setInited
    match bufSamples config.samplesPerFrame with
    | none => do
      access .undefinedShift
      return -1
    | some bufSamples => openDevice config bufSamples

/-- A packet is decoded into `pcm_` and queued from there. -/
def play (sampleData : Bytes) (sampleLength : Int) : Code Unit := do
  let decoded ← access (.decode sampleData sampleLength (← access .samplesPerFrame))
  if decoded ≤ 0 then return
  -- An `int16_t` has two bytes.
  let bytes := decoded * (← access .channelCount) * 2
  onlyIf ((← access (.queueAudio bytes)) = true) (access .countPlayed)

def decodeAndPlay (sampleData : Bytes) (sampleLength : Int) : Code Unit := do
  if (← access .decoder) = none then return
  if (← access .audioDevice) = 0 then return
  if (← access .pcmEmpty) = true then return
  play sampleData sampleLength

def closeDevice : Code Unit := do
  onlyIf ((← access .audioDevice) ≠ 0) (access .closeDevice)

def destroyDecoder : Code Unit := do
  onlyIf ((← access .decoder) ≠ none) (access .destroyDecoder)

def quitAudio : Code Unit := do
  onlyIf ((← access .sdlInited) = true) (access .quitAudio)

def cleanup : Code Unit := do
  closeDevice
  destroyDecoder
  quitAudio

def body : Method → Code (Ending Method Result)
  | .init opusConfig => do return .result (.code (← init opusConfig))
  | .decodeAndPlay sampleData sampleLength => do
    decodeAndPlay sampleData sampleLength
    return .result .void
  | .cleanup => do
    cleanup
    return .result .void

/-- What a call does. Opus returns null with every error, and decodes at most `frameSize` samples
for each channel. -/
def effect : (c : Call) → World → Answer c → World → Prop
  | .decoder, w, answer, w' => answer = w.decoder ∧ w' = w
  | .audioDevice, w, answer, w' => answer = w.audioDevice ∧ w' = w
  | .channelCount, w, answer, w' => answer = w.channelCount ∧ w' = w
  | .samplesPerFrame, w, answer, w' => answer = w.samplesPerFrame ∧ w' = w
  | .sdlInited, w, answer, w' => answer = w.sdlInited ∧ w' = w
  | .pcmEmpty, w, answer, w' => answer = w.pcm.isEmpty ∧ w' = w
  | .setConfig channelCount samplesPerFrame, w, _, w' => w' = { w with channelCount, samplesPerFrame }
  | .createDecoder _, w, false, w' => w' = { w with decoder := none }
  | .createDecoder config, w, true, w' => ∃ p, w.decoders p = none ∧ w' =
    { w with decoder := some p, decoders := Function.update w.decoders p (some config.channelCount) }
  | .initAudio, w, ok, w' => w' = { w with audioSystem := w.audioSystem + if ok = true then 1 else 0 }
  | .setInited, w, _, w' => w' = { w with sdlInited := true }
  | .undefinedShift, _, _, _ => False
  | .openDevice _, w, false, w' => w' = { w with audioDevice := 0 }
  | .openDevice want, w, true, w' => ∃ d, d ≠ 0 ∧ w.devices d = none ∧ w' =
    { w with audioDevice := d, devices := Function.update w.devices d (some want) }
  | .assignPcm size, w, _, w' => w' = { w with pcm := List.replicate size.toNat 0 }
  | .pauseDevice, w, _, w' => w' = w
  | .decode _ _ frameSize, w, answer, w' =>
    if answer ≤ 0 then ∃ pcm, pcm.length = w.pcm.length ∧ w' = { w with pcm }
    else answer ≤ frameSize ∧ ∃ p channels samples, w.decoder = some p ∧ w.decoders p = some channels ∧
      (samples.length : Int) = answer * channels ∧ w' =
        { w with
          pcm := samples ++ w.pcm.drop samples.length
          decoded := w.decoded ++ [samples] }
  | .queueAudio _, w, false, w' => w' = w
  | .queueAudio bytes, w, true, w' =>
    w' = { w with queued := w.queued ++ [w.pcm.take (bytes / 2).toNat] }
  | .countPlayed, w, _, w' => w' = { w with framesPlayed := w.framesPlayed + 1 }
  | .closeDevice, w, _, w' =>
    w' = { w with audioDevice := 0, devices := Function.update w.devices w.audioDevice none }
  | .destroyDecoder, w, _, w' => ∃ p, w.decoder = some p ∧
    w' = { w with decoder := none, decoders := Function.update w.decoders p none }
  | .quitAudio, w, _, w' => w' = { w with audioSystem := w.audioSystem - 1, sdlInited := false }

/-- A packet of Opus has at most 120 ms of at most 255 channels, at 48 kHz. -/
def OpusConfig.Usable (config : OpusConfig) : Prop :=
  0 < config.channelCount ∧ config.channelCount ≤ 255 ∧
    0 < config.samplesPerFrame ∧ config.samplesPerFrame ≤ 5760

/-- What moonlight and the worker promise: `init` is for a renderer that is closed, with a usable
configuration. -/
def Method.ready : Method → World → Prop
  | .init opusConfig, w => w.decoder = none ∧ w.audioDevice = 0 ∧ w.sdlInited = false ∧
    ∀ config, opusConfig = some config → config.Usable
  | .decodeAndPlay .., _ | .cleanup, _ => True

/-- The renderer. No two of its methods overlap. -/
def renderer : Object Unit World Call Answer Method Result where
  effect _ := effect
  body := body
  thread _ := ()
  overlaps _ _ := False
  overlaps_symm _ _ := id
  ready := Method.ready

end Audio
end StreamEngine.Client
