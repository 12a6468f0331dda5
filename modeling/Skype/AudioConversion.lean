import Skype.AudioPlayback

/-!
# `AudioConverter`

Packages of the microphone are cut into frames for the encoder, and what arrives from the
peer is decoded into packages for the speaker. ffmpeg is a parameter: its contexts and
their failures are its own state, and what it hands out ends after every send.
-/

namespace Skype

open Library

namespace AudioSettings

def bitMultiplier : ℕ := 4

def bufferSize : ℕ := 1152 * bitMultiplier

def converterMaxTries : ℕ := 40

end AudioSettings

def captureSizeFrames : ℕ := 1

namespace Ffmpeg

inductive Received
  | output (bytes : ByteString)
  | again
  | eof
  | error

inductive Created
  | missing
  | refused
  | opened

structure Frame where
  data : ByteString
  nbSamples : ℕ

end Ffmpeg

open Ffmpeg (Received Created Frame)

/-- The calls of ffmpeg over its state. The sizes of a frame and of the padding, both in
bytes, are those of the codec; a frame is not empty, a parser uses some of the bytes it
gets, and a context hands out finitely many outputs. -/
structure Ffmpeg (W : Type) where
  frameSize : W → Option ℕ
  initialPadding : W → ℕ
  createEncoder : W → Created × W
  createDecoder : W → Created × W
  makeWritable : W → Bool × W
  sendFrame : Option Frame → W → Bool × W
  receivePacket : W → Received × W
  parse : ByteString → W → Option (ℕ × ByteString) × W
  sendPacket : Option ByteString → W → Bool × W
  receiveFrame : W → Received × W
  pendingPackets : W → ℕ
  pendingFrames : W → ℕ
  frameSize_pos : ∀ {w size}, frameSize w = some size → 0 < size
  parse_pos : ∀ {bytes w used packet}, bytes ≠ [] → (parse bytes w).1 = some (used, packet) →
    0 < used ∧ used ≤ bytes.length
  packets_end : ∀ {w bytes w'}, receivePacket w = (.output bytes, w') →
    pendingPackets w' < pendingPackets w
  frames_end : ∀ {w bytes w'}, receiveFrame w = (.output bytes, w') →
    pendingFrames w' < pendingFrames w

structure Converter (W : Type) where
  mValid : Bool
  mAwaiting : Bool
  mFirstFrame : Bool
  mEncoderContext : Bool
  mDecoderContext : Bool
  mParser : Bool
  mFrame : Frame
  ffmpeg : W

namespace Converter

variable {W : Type}

def makeValid (conv : Converter W) : Converter W := { conv with mValid := true }

def isValid (conv : Converter W) (passes : Bool) : Converter W :=
  { conv with mValid := conv.mValid && passes }

section

variable (ff : Ffmpeg W)

def createEncoderContext (conv : Converter W) : Converter W :=
  if conv.mValid then
    match ff.createEncoder conv.ffmpeg with
    | (.missing, ffmpeg) => { conv with mEncoderContext := false, mValid := false, ffmpeg }
    | (.refused, ffmpeg) => { conv with mEncoderContext := true, mValid := false, ffmpeg }
    | (.opened, ffmpeg) => { conv with mEncoderContext := true, ffmpeg }
  else { conv with mEncoderContext := false }

def createDecoderContext (conv : Converter W) : Converter W :=
  if conv.mValid then
    match ff.createDecoder conv.ffmpeg with
    | (.missing, ffmpeg) => { conv with mDecoderContext := false, mValid := false, ffmpeg }
    | (.refused, ffmpeg) => { conv with mDecoderContext := true, mValid := false, ffmpeg }
    | (.opened, ffmpeg) => { conv with mDecoderContext := true, ffmpeg }
  else { conv with mDecoderContext := false }

/-! ### `encode` -/

def receivePackets : ℕ → Converter W → ByteString → Exec (ByteString × Converter W)
  | 0, _, _ => .error .endless
  | fuel + 1, conv, tData =>
    match ff.receivePacket conv.ffmpeg with
    | (.again, ffmpeg) => .ok (tData, { conv with mAwaiting := true, ffmpeg })
    | (.eof, ffmpeg) => .ok (tData, { conv with mAwaiting := false, ffmpeg })
    | (.error, ffmpeg) => .ok (tData, { conv with mValid := false, ffmpeg })
    | (.output bytes, ffmpeg) =>
      receivePackets fuel { conv with mAwaiting := false, ffmpeg } (tData ++ bytes)

/-- No frame is sent to flush the encoder. -/
def encodeFrames (conv : Converter W) (frame : Option Frame) (tData : ByteString) :
    Exec (ByteString × Converter W) :=
  if conv.mValid = false then .ok (tData, conv)
  else if conv.mEncoderContext = false then .error .undefined
  else
    match ff.sendFrame frame conv.ffmpeg with
    | (false, ffmpeg) => .ok (tData, { conv with mValid := false, ffmpeg })
    | (true, ffmpeg) => receivePackets ff (ff.pendingPackets ffmpeg + 1) { conv with ffmpeg } tData

def fill (package : ByteString) (tSize tOffset : ℕ) (frame : Frame) : Frame :=
  let copied := (package.drop tOffset).take tSize
  { data := copied ++ frame.data.drop copied.length
    nbSamples := if copied.length < tSize then copied.length / AudioSettings.bitMultiplier
      else frame.nbSamples }

def copyToFrame (conv : Converter W) (package : ByteString) (tSize tOffset : ℕ) : Converter W :=
  let (passes, ffmpeg) := ff.makeWritable conv.ffmpeg
  let conv := { conv with ffmpeg }.isValid passes
  if conv.mValid then { conv with mFrame := fill package tSize tOffset conv.mFrame } else conv

def encodeSlices (package : ByteString) (tSize : ℕ) :
    ℕ → ℕ → Converter W → ByteString → Exec (ByteString × Converter W)
  | 0, _, conv, tData => .ok (tData, conv)
  | count + 1, i, conv, tData => do
    let conv := copyToFrame ff conv package tSize (tSize * i)
    let (tData, conv) ← encodeFrames ff conv (some conv.mFrame) tData
    encodeSlices package tSize count (i + 1) conv tData

/-- `frame_size_bytes` reads the context of the encoder without a look at it. -/
def encodePackage (conv : Converter W) (package tData : ByteString) :
    Exec (ByteString × Converter W) :=
  if conv.mEncoderContext = false then .error .undefined
  else
    match ff.frameSize conv.ffmpeg with
    | none => .ok (tData, { conv with mValid := false })
    | some size =>
      if conv.mValid then encodeSlices ff package size (package.length / size) 0 conv tData
      else .ok (tData, conv)

/-- The rounds of the loop of `encode` up to the next package or until no try is left; they
do not count as rounds. `pushes` is what the microphone queues before each look. The results
are the package, the queue, the number of looks and the tries that are left. -/
def awaitPackage (pushes : ℕ → List ByteString) :
    ℕ → ℕ → List ByteString → Option ByteString × List ByteString × ℕ × ℕ
  | 0, look, queue => (none, queue, look, 0)
  | tries + 1, look, queue =>
    match queue ++ pushes look with
    | [] => awaitPackage pushes tries (look + 1) []
    | package :: queue => (some package, queue, look + 1, tries + 1)

def encodeLoop (pushes : ℕ → List ByteString) :
    ℕ → ℕ → ℕ → List ByteString → Converter W → ByteString →
      Exec (ByteString × Converter W × List ByteString × ℕ)
  | 0, _, look, queue, conv, data => .ok (data, conv, queue, look)
  | count + 1, tries, look, queue, conv, data =>
    match awaitPackage pushes tries look queue with
    | (none, queue, look, _) => .ok (data, conv, queue, look)
    | (some package, queue, look, tries) => do
      let (data, conv) ← encodePackage ff conv package data
      encodeLoop pushes count tries look queue conv data

def encode (pushes : ℕ → List ByteString) (queue : List ByteString) (conv : Converter W) :
    Exec (ByteString × Converter W × List ByteString × ℕ) := do
  let (data, conv, queue, looks) ←
    encodeLoop ff pushes captureSizeFrames AudioSettings.converterMaxTries 0 queue conv []
  let (data, conv) ← encodeFrames ff conv none data
  return (data, { createEncoderContext ff conv with mAwaiting := false }, queue, looks)

/-! ### `decode` -/

/-- The loop over the bytes of a frame of one channel; from the first byte that finds the
buffer filled the rest is skipped. -/
def pushBytes (decoded : ByteString) : ByteString → ByteString
  | [] => decoded
  | byte :: bytes =>
    if decoded.length = AudioSettings.bufferSize then decoded
    else pushBytes (decoded ++ [byte]) bytes

/-- The loop of `decode_frames`. The padding is read from the context of the encoder. -/
def receiveFrames : ℕ → Converter W → ByteString → Exec (ByteString × Converter W)
  | 0, _, _ => .error .endless
  | fuel + 1, conv, decoded =>
    match ff.receiveFrame conv.ffmpeg with
    | (.again, ffmpeg) => .ok (decoded, { conv with mAwaiting := true, ffmpeg })
    | (.eof, ffmpeg) => .ok (decoded, { conv with mAwaiting := false, ffmpeg })
    | (.error, ffmpeg) => .ok (decoded, { conv with mValid := false, ffmpeg })
    | (.output bytes, ffmpeg) =>
      if conv.mValid = false then .ok (decoded, { conv with ffmpeg })
      else if conv.mEncoderContext = false then .error .undefined
      else
        let start := if conv.mFirstFrame then ff.initialPadding ffmpeg else 0
        receiveFrames fuel { conv with mFirstFrame := false, ffmpeg }
          (pushBytes decoded (bytes.drop start))

def decodeFrames (conv : Converter W) (packet : Option ByteString) (decoded : ByteString) :
    Exec (ByteString × Converter W) :=
  if conv.mDecoderContext = false then .error .undefined
  else
    match ff.sendPacket packet conv.ffmpeg with
    | (false, ffmpeg) => .ok (decoded, { conv with mValid := false, ffmpeg })
    | (true, ffmpeg) => receiveFrames ff (ff.pendingFrames ffmpeg + 1) { conv with ffmpeg } decoded

/-- The loop of `decode`; the flag is false when the loop has returned from `decode`. -/
def decodeLoop : ℕ → ByteString → Converter W → ByteString →
    Exec (Bool × ByteString × Converter W)
  | _, [], conv, decoded => .ok (true, decoded, conv)
  | 0, _ :: _, _, _ => .error .endless
  | fuel + 1, byte :: bytes, conv, decoded =>
    if conv.mValid = false then .ok (false, decoded, conv)
    else if conv.mParser = false ∨ conv.mDecoderContext = false then .error .undefined
    else
      match ff.parse (byte :: bytes) conv.ffmpeg with
      | (none, ffmpeg) => .ok (false, decoded, { conv with mValid := false, ffmpeg })
      | (some (used, packet), ffmpeg) => do
        let (decoded, conv) ←
          if packet = [] then pure (decoded, { conv with ffmpeg })
          else decodeFrames ff { conv with ffmpeg } (some packet) decoded
        decodeLoop fuel ((byte :: bytes).drop used) conv decoded

def finish (conv : Converter W) (decoded : ByteString) : Exec (ByteString × Converter W) := do
  let (decoded, conv) ←
    if conv.mAwaiting then do
      let (decoded, conv) ← decodeFrames ff conv none decoded
      pure (decoded, createDecoderContext ff { conv with mAwaiting := false })
    else pure (decoded, conv)
  return (decoded, { conv with mFirstFrame := true })

def decode (conv : Converter W) (tEncodedData : ByteString) : Exec (ByteString × Converter W) := do
  let (whole, decoded, conv) ← decodeLoop ff tEncodedData.length tEncodedData conv []
  if whole then finish ff conv decoded else return (decoded, conv)

end

structure Alive (conv : Converter W) : Prop where
  encoder : conv.mEncoderContext = true
  decoder : conv.mDecoderContext = true
  parser : conv.mParser = true

structure Keeps (conv : Converter W) (decoded : ByteString) (conv' : Converter W)
    (decoded' : ByteString) : Prop where
  encoder : conv'.mEncoderContext = conv.mEncoderContext
  decoder : conv'.mDecoderContext = conv.mDecoderContext
  parser : conv'.mParser = conv.mParser
  bounded : decoded.length ≤ AudioSettings.bufferSize → decoded'.length ≤ AudioSettings.bufferSize

section

variable {ff : Ffmpeg W} {conv conv' : Converter W} {decoded decoded' : ByteString}

theorem pushBytes_eq (h : decoded.length ≤ AudioSettings.bufferSize) (bytes : ByteString) :
    pushBytes decoded bytes = (decoded ++ bytes).take AudioSettings.bufferSize := by
  induction bytes generalizing decoded with
  | nil =>
    rw [pushBytes, List.append_nil, List.take_of_length_le h]
  | cons byte bytes ih =>
    rw [pushBytes]
    split
    · next hfull => rw [List.take_left' hfull]
    · next hroom =>
      have hone : (decoded ++ [byte]).length ≤ AudioSettings.bufferSize := by
        rw [List.length_append, List.length_singleton]
        omega
      rw [ih hone, List.append_assoc, List.singleton_append]

theorem length_pushBytes_le (h : decoded.length ≤ AudioSettings.bufferSize) (bytes : ByteString) :
    (pushBytes decoded bytes).length ≤ AudioSettings.bufferSize := by
  rw [pushBytes_eq h]
  exact List.length_take_le _ _

theorem Keeps.refl (conv : Converter W) (decoded : ByteString) : Keeps conv decoded conv decoded :=
  ⟨rfl, rfl, rfl, id⟩

theorem Keeps.trans {mid : Converter W} {between : ByteString}
    (h : Keeps conv decoded mid between) (h' : Keeps mid between conv' decoded') :
    Keeps conv decoded conv' decoded' :=
  ⟨h'.encoder.trans h.encoder, h'.decoder.trans h.decoder, h'.parser.trans h.parser,
    fun hle => h'.bounded (h.bounded hle)⟩

theorem Keeps.alive_iff (h : Keeps conv decoded conv' decoded') : Alive conv' ↔ Alive conv := by
  constructor
  · intro halive
    exact ⟨h.encoder ▸ halive.encoder, h.decoder ▸ halive.decoder, h.parser ▸ halive.parser⟩
  · intro halive
    exact ⟨h.encoder.trans halive.encoder, h.decoder.trans halive.decoder,
      h.parser.trans halive.parser⟩

inductive Ends (conv : Converter W) (decoded : ByteString) :
    Exec (ByteString × Converter W) → Prop
  | returns {conv' : Converter W} {decoded' : ByteString}
      (h : Keeps conv decoded conv' decoded') : Ends conv decoded (.ok (decoded', conv'))
  | undefined (h : ¬Alive conv) : Ends conv decoded (.error .undefined)

theorem Ends.from {mid : Converter W} {between : ByteString}
    {result : Exec (ByteString × Converter W)} (h : Keeps conv decoded mid between)
    (hends : Ends mid between result) : Ends conv decoded result := by
  cases hends with
  | returns hrest => exact .returns (h.trans hrest)
  | undefined hdead => exact .undefined fun halive => hdead (h.alive_iff.mpr halive)

theorem receiveFrames_ends {fuel : ℕ} (hfuel : ff.pendingFrames conv.ffmpeg < fuel)
    (decoded : ByteString) : Ends conv decoded (receiveFrames ff fuel conv decoded) := by
  induction fuel generalizing conv decoded with
  | zero => omega
  | succ fuel ih =>
    rw [receiveFrames]
    cases hreceive : ff.receiveFrame conv.ffmpeg with
    | mk received ffmpeg =>
      cases received with
      | again => exact .returns ⟨rfl, rfl, rfl, id⟩
      | eof => exact .returns ⟨rfl, rfl, rfl, id⟩
      | error => exact .returns ⟨rfl, rfl, rfl, id⟩
      | output bytes =>
        dsimp only
        split
        · exact .returns ⟨rfl, rfl, rfl, id⟩
        · split
          · next hnull =>
            refine .undefined fun halive => ?_
            rw [halive.encoder] at hnull
            cases hnull
          · have hless := ff.frames_end hreceive
            have hpushed : Keeps conv decoded { conv with mFirstFrame := false, ffmpeg }
                (pushBytes decoded
                  (bytes.drop (if conv.mFirstFrame then ff.initialPadding ffmpeg else 0))) :=
              ⟨rfl, rfl, rfl, fun hle => length_pushBytes_le hle _⟩
            apply Ends.from hpushed
            apply ih
            dsimp only
            omega

theorem decodeFrames_ends (ff : Ffmpeg W) (conv : Converter W) (packet : Option ByteString)
    (decoded : ByteString) : Ends conv decoded (decodeFrames ff conv packet decoded) := by
  rw [decodeFrames]
  split
  · next hnull =>
    refine .undefined fun halive => ?_
    rw [halive.decoder] at hnull
    cases hnull
  · cases hsend : ff.sendPacket packet conv.ffmpeg with
    | mk sent ffmpeg =>
      cases sent with
      | false => exact .returns ⟨rfl, rfl, rfl, id⟩
      | true =>
        have hsent : Keeps conv decoded { conv with ffmpeg } decoded := ⟨rfl, rfl, rfl, id⟩
        exact Ends.from hsent (receiveFrames_ends (Nat.lt_succ_self _) decoded)

theorem decodeLoop_ends {fuel : ℕ} {bytes : ByteString} (hfuel : bytes.length ≤ fuel)
    (decoded : ByteString) :
    Ends conv decoded ((decodeLoop ff fuel bytes conv decoded).map Prod.snd) := by
  induction fuel generalizing bytes conv decoded with
  | zero =>
    obtain rfl := List.length_eq_zero_iff.mp (Nat.le_zero.mp hfuel)
    exact .returns (Keeps.refl _ _)
  | succ fuel ih =>
    cases bytes with
    | nil => exact .returns (Keeps.refl _ _)
    | cons byte bytes =>
      rw [decodeLoop]
      split
      · exact .returns (Keeps.refl _ _)
      · split
        · next hnull =>
          refine .undefined fun halive => ?_
          rw [halive.parser, halive.decoder] at hnull
          simp at hnull
        · cases hparse : ff.parse (byte :: bytes) conv.ffmpeg with
          | mk result ffmpeg =>
            have hparsed : Keeps conv decoded { conv with ffmpeg } decoded := ⟨rfl, rfl, rfl, id⟩
            cases result with
            | none => exact .returns ⟨rfl, rfl, rfl, id⟩
            | some result =>
              obtain ⟨used, packet⟩ := result
              obtain ⟨hused, -⟩ := ff.parse_pos (List.cons_ne_nil byte bytes)
                (congrArg Prod.fst hparse)
              have hshort : ((byte :: bytes).drop used).length ≤ fuel := by
                rw [List.length_drop, List.length_cons]
                rw [List.length_cons] at hfuel
                omega
              dsimp only
              split
              · exact Ends.from hparsed (ih hshort decoded)
              · have hframes := decodeFrames_ends ff { conv with ffmpeg } (some packet) decoded
                generalize decodeFrames ff { conv with ffmpeg } (some packet) decoded = result
                  at hframes
                apply Ends.from hparsed
                cases hframes with
                | returns hkeeps => exact Ends.from hkeeps (ih hshort _)
                | undefined hdead => exact .undefined hdead

theorem createDecoderContext_keeps (ff : Ffmpeg W) (conv : Converter W) :
    (createDecoderContext ff conv).mEncoderContext = conv.mEncoderContext ∧
      (createDecoderContext ff conv).mParser = conv.mParser ∧
        (createDecoderContext ff conv).mAwaiting = conv.mAwaiting ∧
          ((createDecoderContext ff conv).mDecoderContext = false ↔
            conv.mValid = false ∨ (ff.createDecoder conv.ffmpeg).1 = .missing) := by
  rw [createDecoderContext]
  cases hvalid : conv.mValid with
  | false => exact ⟨rfl, rfl, rfl, iff_of_true rfl (Or.inl rfl)⟩
  | true =>
    rw [if_pos rfl]
    cases hcreate : ff.createDecoder conv.ffmpeg with
    | mk created ffmpeg =>
      cases created with
      | missing => exact ⟨rfl, rfl, rfl, iff_of_true rfl (Or.inr rfl)⟩
      | refused => exact ⟨rfl, rfl, rfl, iff_of_false (by simp) (by simp)⟩
      | opened => exact ⟨rfl, rfl, rfl, iff_of_false (by simp) (by simp)⟩

def LosesContext (ff : Ffmpeg W) (conv : Converter W) (bytes : ByteString) : Prop :=
  match decodeLoop ff bytes.length bytes conv [] with
  | .ok (true, decoded, mid) =>
    mid.mAwaiting = true ∧
      match decodeFrames ff mid none decoded with
      | .ok (_, flushed) => flushed.mValid = false ∨ (ff.createDecoder flushed.ffmpeg).1 = .missing
      | .error _ => False
  | _ => False

structure Decoded (ff : Ffmpeg W) (conv : Converter W) (bytes : ByteString)
    (conv' : Converter W) : Prop where
  encoder : conv'.mEncoderContext = true
  parser : conv'.mParser = true
  lost : conv'.mDecoderContext = false ↔ LosesContext ff conv bytes
  awaiting : conv'.mDecoderContext = false → conv'.mAwaiting = false

theorem decode_alive (ff : Ffmpeg W) (halive : Alive conv) (bytes : ByteString) :
    ∃ decoded conv', decode ff conv bytes = .ok (decoded, conv') ∧ Decoded ff conv bytes conv' := by
  have hends : Ends conv [] ((decodeLoop ff bytes.length bytes conv []).map Prod.snd) :=
    decodeLoop_ends (le_refl bytes.length) []
  rw [decode]
  cases hloop : decodeLoop ff bytes.length bytes conv [] with
  | error e =>
    rw [hloop] at hends
    cases hends with
    | undefined hdead => exact absurd halive hdead
  | ok result =>
    obtain ⟨whole, decoded, mid⟩ := result
    rw [hloop] at hends
    cases hends with
    | returns hkeeps =>
      have hmid := hkeeps.alive_iff.mpr halive
      cases whole with
      | false =>
        refine ⟨decoded, mid, rfl, hmid.encoder, hmid.parser, ?_, ?_⟩
        · rw [LosesContext, hloop, hmid.decoder]
          simp
        · rw [hmid.decoder]
          intro h
          cases h
      | true =>
        rw [ok_bind]
        dsimp only
        rw [if_pos rfl, finish]
        cases hawaiting : mid.mAwaiting with
        | false =>
          refine ⟨decoded, _, rfl, hmid.encoder, hmid.parser, ?_, fun _ => hawaiting⟩
          rw [LosesContext, hloop]
          simp [hmid.decoder, hawaiting]
        | true =>
          have hflush := decodeFrames_ends ff mid none decoded
          cases hframes : decodeFrames ff mid none decoded with
          | error e =>
            rw [hframes] at hflush
            cases hflush with
            | undefined hdead => exact absurd hmid hdead
          | ok result =>
            obtain ⟨tail, flushed⟩ := result
            rw [hframes] at hflush
            cases hflush with
            | returns hkept =>
              have halive' := hkept.alive_iff.mpr hmid
              obtain ⟨hencoder, hparser, hdone, hlost⟩ :=
                createDecoderContext_keeps ff { flushed with mAwaiting := false }
              refine ⟨tail, _, rfl, ?_, ?_, ?_, fun _ => hdone⟩
              · exact hencoder.trans halive'.encoder
              · exact hparser.trans halive'.parser
              · rw [LosesContext, hloop]
                dsimp only
                rw [hframes]
                simp [hlost, hawaiting]

theorem decode_bounded {bytes : ByteString} (h : decode ff conv bytes = .ok (decoded, conv')) :
    decoded.length ≤ AudioSettings.bufferSize := by
  have hends : Ends conv [] ((decodeLoop ff bytes.length bytes conv []).map Prod.snd) :=
    decodeLoop_ends (le_refl bytes.length) []
  rw [decode] at h
  obtain ⟨⟨whole, between, mid⟩, hloop, h⟩ := bind_eq_ok.mp h
  rw [hloop] at hends
  cases hends with
  | returns hkeeps =>
    have hbetween := hkeeps.bounded (Nat.zero_le _)
    dsimp only at h
    cases whole with
    | false =>
      obtain ⟨rfl, -⟩ := Prod.mk.inj (Except.ok.inj h)
      exact hbetween
    | true =>
      rw [if_pos rfl, finish] at h
      split at h
      · have hflush := decodeFrames_ends ff mid none between
        obtain ⟨⟨tail, flushed⟩, hframes, h⟩ := bind_eq_ok.mp h
        obtain ⟨rfl, -⟩ := Prod.mk.inj (Except.ok.inj h)
        rw [hframes] at hflush
        cases hflush with
        | returns hkept => exact hkept.bounded hbetween
      · obtain ⟨rfl, -⟩ := Prod.mk.inj (Except.ok.inj h)
        exact hbetween

end

def load (ff : Ffmpeg W) (conv : Converter W) (bytes : ByteString) :
    Exec (ByteString × Converter W) := do
  let (decoded, conv) ← decode ff conv bytes
  return (decoded, if conv.mValid then conv else conv.makeValid)

section

variable {ff : Ffmpeg W} {conv conv' : Converter W} {decoded : ByteString}

theorem load_alive (ff : Ffmpeg W) (halive : Alive conv) (bytes : ByteString) :
    ∃ decoded next, load ff conv bytes = .ok (decoded, next) ∧ next.mValid = true ∧
      Decoded ff conv bytes next := by
  obtain ⟨decoded, conv', hdecode, hdecoded⟩ := decode_alive ff halive bytes
  obtain ⟨hencoder, hparser, hlost, hawaiting⟩ := hdecoded
  rw [load, hdecode, ok_bind]
  dsimp only
  cases hvalid : conv'.mValid with
  | false => exact ⟨_, _, rfl, rfl, hencoder, hparser, hlost, hawaiting⟩
  | true => exact ⟨_, _, rfl, hvalid, hencoder, hparser, hlost, hawaiting⟩

theorem load_bounded {bytes : ByteString} (h : load ff conv bytes = .ok (decoded, conv')) :
    decoded.length ≤ AudioSettings.bufferSize := by
  rw [load] at h
  obtain ⟨⟨whole, next⟩, hdecode, h⟩ := bind_eq_ok.mp h
  obtain ⟨rfl, -⟩ := Prod.mk.inj (Except.ok.inj h)
  exact decode_bounded hdecode

structure Lost (conv : Converter W) : Prop where
  valid : conv.mValid = true
  decoder : conv.mDecoderContext = false
  awaiting : conv.mAwaiting = false

theorem Lost.load_nil (h : Lost conv) :
    load ff conv [] = .ok ([], { conv with mFirstFrame := true }) := by
  simp [load, decode, decodeLoop, finish, h.awaiting, h.valid]

theorem Lost.load_cons (h : Lost conv) (byte : UInt8) (bytes : ByteString) :
    load ff conv (byte :: bytes) = .error .undefined := by
  simp [load, decode, decodeLoop, h.valid, h.decoder]

end

def await (pushes : ℕ → List ByteString) (queue : List ByteString) :
    Option ByteString × List ByteString × ℕ × ℕ :=
  awaitPackage pushes AudioSettings.converterMaxTries 0 queue

def encodeTaken (ff : Ffmpeg W) (conv : Converter W) (taken : Option ByteString) :
    Exec (ByteString × Converter W) := do
  let (data, conv) ←
    match taken with
    | none => pure ([], conv)
    | some package => encodePackage ff conv package []
  let (data, conv) ← encodeFrames ff conv none data
  return (data, { createEncoderContext ff conv with mAwaiting := false })

section

variable {ff : Ffmpeg W} {pushes : ℕ → List ByteString}

theorem encode_eq (ff : Ffmpeg W) (pushes : ℕ → List ByteString) (queue : List ByteString)
    (conv : Converter W) :
    encode ff pushes queue conv = (do
      let (data, conv) ← encodeTaken ff conv (await pushes queue).1
      return (data, conv, (await pushes queue).2.1, (await pushes queue).2.2.1)) := by
  unfold encodeTaken
  rw [encode, captureSizeFrames, encodeLoop, ← await]
  generalize await pushes queue = found
  obtain ⟨taken, queue, looks, tries⟩ := found
  cases taken with
  | none => simp only [ok_bind, bind_assoc, pure_eq_ok]
  | some package => simp only [encodeLoop, ok_bind, bind_assoc, pure_eq_ok]

theorem awaitPackage_conserves (pushes : ℕ → List ByteString) (tries look : ℕ)
    (queue : List ByteString) :
    ∃ looks, (awaitPackage pushes tries look queue).2.2.1 = look + looks ∧
      queue ++ (List.range' look looks).flatMap pushes =
        (awaitPackage pushes tries look queue).1.toList ++
          (awaitPackage pushes tries look queue).2.1 ∧
      looks ≤ tries ∧ ((awaitPackage pushes tries look queue).1 = none → looks = tries) := by
  induction tries generalizing look queue with
  | zero => exact ⟨0, rfl, by simp [awaitPackage], le_refl 0, fun _ => rfl⟩
  | succ tries ih =>
    rw [awaitPackage]
    cases hfound : queue ++ pushes look with
    | nil =>
      obtain ⟨hqueue, hpushes⟩ := List.append_eq_nil_iff.mp hfound
      obtain ⟨looks, hlooks, hkept, hle, hnone⟩ := ih (look + 1) []
      refine ⟨looks + 1, ?_, ?_, Nat.succ_le_succ hle, fun h => congrArg (· + 1) (hnone h)⟩
      · dsimp only
        omega
      · rw [List.range'_succ, List.flatMap_cons, hqueue, hpushes]
        exact hkept
    | cons package rest =>
      refine ⟨1, rfl, ?_, by omega, fun h => by cases h⟩
      rw [List.range'_succ, List.range'_zero, List.flatMap_singleton]
      exact hfound

end

def Returns (conv : Converter W) (result : Exec (ByteString × Converter W)) : Prop :=
  ∃ data conv', result = .ok (data, conv') ∧ conv'.mEncoderContext = conv.mEncoderContext

structure Broken (conv : Converter W) : Prop where
  valid : conv.mValid = false
  encoder : conv.mEncoderContext = false

def encodeStep (ff : Ffmpeg W) (conv : Converter W) (taken : Option ByteString) :
    Exec (Converter W) := do
  let (_, conv) ← encodeTaken ff conv taken
  return conv

/-- The encoding of what was taken fails, or no context follows on it. -/
def BreaksEncoder (ff : Ffmpeg W) (conv : Converter W) (taken : Option ByteString) : Prop :=
  ∃ next, encodeStep ff conv taken = .ok next ∧ next.mEncoderContext = false

section

variable {ff : Ffmpeg W} {conv : Converter W}

theorem receivePackets_returns {fuel : ℕ} (hfuel : ff.pendingPackets conv.ffmpeg < fuel)
    (tData : ByteString) : Returns conv (receivePackets ff fuel conv tData) := by
  induction fuel generalizing conv tData with
  | zero => omega
  | succ fuel ih =>
    rw [receivePackets]
    cases hreceive : ff.receivePacket conv.ffmpeg with
    | mk received ffmpeg =>
      cases received with
      | again => exact ⟨_, _, rfl, rfl⟩
      | eof => exact ⟨_, _, rfl, rfl⟩
      | error => exact ⟨_, _, rfl, rfl⟩
      | output bytes =>
        have hless := ff.packets_end hreceive
        have hnext : ff.pendingPackets ffmpeg < fuel := by omega
        let next : Converter W := { conv with mAwaiting := false, ffmpeg := ffmpeg }
        exact ih (show ff.pendingPackets next.ffmpeg < fuel from hnext) (tData ++ bytes)

theorem encodeFrames_returns (ff : Ffmpeg W) (hencoder : conv.mEncoderContext = true)
    (frame : Option Frame) (tData : ByteString) :
    Returns conv (encodeFrames ff conv frame tData) := by
  rw [encodeFrames]
  split
  · exact ⟨_, _, rfl, rfl⟩
  · rw [if_neg (by rw [hencoder]; decide)]
    cases hsend : ff.sendFrame frame conv.ffmpeg with
    | mk sent ffmpeg =>
      cases sent with
      | false => exact ⟨_, _, rfl, rfl⟩
      | true =>
        let next : Converter W := { conv with ffmpeg := ffmpeg }
        have hfuel : ff.pendingPackets next.ffmpeg < ff.pendingPackets ffmpeg + 1 :=
          Nat.lt_succ_self _
        exact receivePackets_returns hfuel tData

theorem encodeSlices_returns (hencoder : conv.mEncoderContext = true) (package : ByteString)
    (size count i : ℕ) (tData : ByteString) :
    Returns conv (encodeSlices ff package size count i conv tData) := by
  induction count generalizing conv i tData with
  | zero => exact ⟨_, _, rfl, rfl⟩
  | succ count ih =>
    have hcopy : (copyToFrame ff conv package size (size * i)).mEncoderContext =
        conv.mEncoderContext := by
      rw [copyToFrame]
      dsimp only
      split
      · rfl
      · rfl
    obtain ⟨data, mid, hframes, hmid⟩ := encodeFrames_returns ff (hcopy.trans hencoder)
      (some (copyToFrame ff conv package size (size * i)).mFrame) tData
    have hkept := hmid.trans hcopy
    obtain ⟨data', conv', hloop, hconv'⟩ := ih (hkept.trans hencoder) (i + 1) data
    rw [encodeSlices]
    dsimp only
    rw [hframes, ok_bind]
    exact ⟨data', conv', hloop, hconv'.trans hkept⟩

theorem encodePackage_returns (hencoder : conv.mEncoderContext = true)
    (package tData : ByteString) : Returns conv (encodePackage ff conv package tData) := by
  rw [encodePackage, if_neg (by rw [hencoder]; decide)]
  split
  · exact ⟨_, _, rfl, rfl⟩
  · split
    · exact encodeSlices_returns hencoder _ _ _ _ _
    · exact ⟨_, _, rfl, rfl⟩

theorem createEncoderContext_broken (ff : Ffmpeg W) (conv : Converter W)
    (h : (createEncoderContext ff conv).mEncoderContext = false) :
    (createEncoderContext ff conv).mValid = false := by
  rw [createEncoderContext] at h ⊢
  cases hvalid : conv.mValid with
  | false => rfl
  | true =>
    rw [hvalid, if_pos rfl] at h
    rw [if_pos rfl]
    cases hcreate : ff.createEncoder conv.ffmpeg with
    | mk created ffmpeg =>
      rw [hcreate] at h
      cases created with
      | missing => rfl
      | refused => cases h
      | opened => cases h

theorem encodeStep_returns (ff : Ffmpeg W) (hencoder : conv.mEncoderContext = true)
    (taken : Option ByteString) :
    ∃ next, encodeStep ff conv taken = .ok next ∧
      (next.mEncoderContext = false → Broken next) := by
  have hfirst : Returns conv (match taken with
      | none => pure ([], conv)
      | some package => encodePackage ff conv package []) := by
    cases taken with
    | none => exact ⟨_, _, rfl, rfl⟩
    | some package => exact encodePackage_returns hencoder package []
  obtain ⟨data, mid, hpackage, hmid⟩ := hfirst
  obtain ⟨tail, flushed, hflush, hflushed⟩ := encodeFrames_returns ff
    (hmid.trans hencoder) none data
  have htaken : encodeTaken ff conv taken =
      .ok (tail, { createEncoderContext ff flushed with mAwaiting := false }) := by
    unfold encodeTaken
    cases taken with
    | none =>
      obtain ⟨rfl, rfl⟩ := Prod.mk.inj (Except.ok.inj hpackage)
      dsimp only
      rw [pure_eq_ok, ok_bind]
      dsimp only
      rw [hflush]
      rfl
    | some package =>
      have hencoded : encodePackage ff conv package [] = .ok (data, mid) := hpackage
      dsimp only
      rw [hencoded, ok_bind]
      dsimp only
      rw [hflush]
      rfl
  rw [encodeStep, htaken]
  exact ⟨_, rfl, fun h => ⟨createEncoderContext_broken ff flushed h, h⟩⟩

theorem Broken.encode_none (h : Broken conv) :
    encodeStep ff conv none = .ok { conv with mAwaiting := false } := by
  obtain ⟨hvalid, hencoder⟩ := h
  have hfreed : createEncoderContext ff conv = conv := by
    rw [createEncoderContext, if_neg (by rw [hvalid]; decide), ← hencoder]
  simp [encodeStep, encodeTaken, encodeFrames, hvalid, hfreed]

theorem Broken.encode_some (h : Broken conv) (package : ByteString) :
    encodeStep ff conv (some package) = .error .undefined := by
  simp [encodeStep, encodeTaken, encodePackage, h.encoder]

theorem encodes_defined_iff (ff : Ffmpeg W) (conv : Converter W) (takens : List (Option ByteString))
    (hencoder : conv.mEncoderContext = true) :
    (∃ t, Transition.runM (encodeStep ff) conv takens = .ok t) ↔
      ∀ pre taken post a, takens = pre ++ taken :: post →
        Transition.runM (encodeStep ff) conv pre = .ok a → BreaksEncoder ff a taken →
          ∀ later ∈ post, later = none := by
  refine Transition.runM_ok_iff (fun conv => conv.mEncoderContext = true) Broken ?_ ?_ ?_ hencoder
  · intro a taken ha
    obtain ⟨next, hstep, hbroken⟩ := encodeStep_returns ff ha taken
    refine ⟨next, hstep, ?_, ?_⟩
    · rintro ⟨other, hother, hgone⟩
      rw [hstep] at hother
      obtain rfl := Except.ok.inj hother
      exact hbroken hgone
    · intro hkeeps
      rw [← Bool.not_eq_false]
      exact fun hgone => hkeeps ⟨next, hstep, hgone⟩
  · intro a taken ha
    cases taken with
    | none => exact iff_of_true ⟨_, ha.encode_none⟩ rfl
    | some package =>
      apply iff_of_false
      · rintro ⟨b, hb⟩
        rw [ha.encode_some] at hb
        cases hb
      · exact Option.some_ne_none package
  · intro a taken b ha hb
    cases taken with
    | none =>
      rw [ha.encode_none] at hb
      obtain rfl := Except.ok.inj hb
      exact ⟨ha.valid, ha.encoder⟩
    | some package =>
      rw [ha.encode_some] at hb
      cases hb

end

/-- An ffmpeg that takes what it gets, hands nothing out and opens no second context. -/
def muteFfmpeg : Ffmpeg Unit where
  frameSize _ := none
  initialPadding _ := 0
  createEncoder ffmpeg := (.missing, ffmpeg)
  createDecoder ffmpeg := (.missing, ffmpeg)
  makeWritable ffmpeg := (true, ffmpeg)
  sendFrame _ ffmpeg := (true, ffmpeg)
  receivePacket ffmpeg := (.again, ffmpeg)
  parse bytes ffmpeg := (some (bytes.length, bytes), ffmpeg)
  sendPacket _ ffmpeg := (true, ffmpeg)
  receiveFrame ffmpeg := (.again, ffmpeg)
  pendingPackets _ := 0
  pendingFrames _ := 0
  frameSize_pos h := by cases h
  parse_pos hne h := by
    obtain ⟨rfl, -⟩ := Prod.mk.inj (Option.some.inj h)
    exact ⟨List.length_pos_of_ne_nil hne, le_refl _⟩
  packets_end h := by cases h
  frames_end h := by cases h

def muteConverter : Converter Unit := ⟨true, false, true, true, true, true, ⟨[], 0⟩, ()⟩

end Converter

structure Delay where
  packets : List ByteString
  flushed : Bool
  frames : List ByteString
  started : Bool
  ended : Bool

namespace Delay

/-- A frame is one sample, and one sample of silence comes in front of the first one. -/
def ffmpeg : Ffmpeg Delay where
  frameSize _ := some 4
  initialPadding _ := 4
  createEncoder w := (.opened, { w with packets := [], flushed := false })
  createDecoder w := (.opened, { w with frames := [], started := false, ended := false })
  makeWritable w := (true, w)
  sendFrame
    | some frame, w => (true, { w with packets := w.packets ++ [frame.data] })
    | none, w => (true, { w with flushed := true })
  receivePacket w :=
    match w.packets with
    | [] => (if w.flushed then .eof else .again, w)
    | packet :: packets => (.output packet, { w with packets })
  parse bytes w := (some (min 4 bytes.length, bytes.take 4), w)
  sendPacket
    | some packet, w =>
      (true, { w with
        frames := w.frames ++ [if w.started then packet else [0, 0, 0, 0] ++ packet]
        started := true })
    | none, w => (true, { w with ended := true })
  receiveFrame w :=
    match w.frames with
    | [] => (if w.ended then .eof else .again, w)
    | frame :: frames => (.output frame, { w with frames })
  pendingPackets w := w.packets.length
  pendingFrames w := w.frames.length
  frameSize_pos h := by
    obtain rfl := Option.some.inj h
    decide
  parse_pos hne h := by
    obtain ⟨rfl, -⟩ := Prod.mk.inj (Option.some.inj h)
    have hpos := List.length_pos_of_ne_nil hne
    exact ⟨by omega, Nat.min_le_right _ _⟩
  packets_end {w bytes w'} h := by
    cases hpackets : w.packets with
    | nil =>
      rw [hpackets] at h
      dsimp only at h
      split at h
      · cases h
      · cases h
    | cons packet packets =>
      rw [hpackets] at h
      obtain ⟨-, rfl⟩ := Prod.mk.inj h
      exact Nat.lt_succ_self _
  frames_end {w bytes w'} h := by
    cases hframes : w.frames with
    | nil =>
      rw [hframes] at h
      dsimp only at h
      split at h
      · cases h
      · cases h
    | cons frame frames =>
      rw [hframes] at h
      obtain ⟨-, rfl⟩ := Prod.mk.inj h
      exact Nat.lt_succ_self _

def converter : Converter Delay :=
  ⟨true, false, true, true, true, true, ⟨[0, 0, 0, 0], 1⟩, ⟨[], false, [], false, false⟩⟩

end Delay

/-! ### The stream of a call -/

namespace AVStream

variable {W : Type}

/-- One round of the loops of `stream_audio`: what the microphone queues before their
conditions are read, whether the first one holds, what it queues before each look of
`encode`, and whether there is a connection to send on. -/
structure Round where
  before : List ByteString
  goesOn : Bool
  pushes : ℕ → List ByteString
  connected : Bool

def sendAudio (ff : Ffmpeg W) (round : Round) (queue : List ByteString) (conv : Converter W) :
    Exec (List Data × List ByteString × Converter W) := do
  let (data, conv, queue, _) ← Converter.encode ff round.pushes queue conv
  return (if round.connected then [⟨.audio, data⟩] else [], queue, conv)

def sendDone (round : Round) : List Data := if round.connected then [⟨.done, []⟩] else []

/-- The thread of `stream_audio`, with what it sends. From the round on in which the first
loop ends the flag is set, and the rounds empty the queue. -/
def streamAudio (ff : Ffmpeg W) :
    Bool → List Round → List ByteString → Converter W →
      Exec (List Data × List ByteString × Converter W)
  | _, [], queue, conv => .ok ([], queue, conv)
  | ended, round :: rounds, queue, conv =>
    if (ended || !round.goesOn) && (queue ++ round.before).isEmpty then
      .ok (sendDone round, queue ++ round.before, conv)
    else do
      let (sent, queue, conv) ← sendAudio ff round (queue ++ round.before) conv
      let (later, queue, conv) ← streamAudio ff (ended || !round.goesOn) rounds queue conv
      return (sent ++ later, queue, conv)

/-- What each call finds in the queue and whether it sends; what the microphone recorded,
what is left of it, whether the thread has ended, and what it sends then. -/
structure Capture where
  calls : List (Option ByteString × Bool)
  recorded : List ByteString
  rest : List ByteString
  ended : Bool
  done : List Data

def capture : Bool → List Round → List ByteString → Capture
  | _, [], queue => ⟨[], [], queue, false, []⟩
  | ended, round :: rounds, queue =>
    if (ended || !round.goesOn) && (queue ++ round.before).isEmpty then
      ⟨[], round.before, queue ++ round.before, true, sendDone round⟩
    else
      let (taken, queue, looks, _) := Converter.await round.pushes (queue ++ round.before)
      let later := capture (ended || !round.goesOn) rounds queue
      { later with
        calls := (taken, round.connected) :: later.calls
        recorded := round.before ++ (List.range looks).flatMap round.pushes ++ later.recorded }

def sendAll (ff : Ffmpeg W) :
    List (Option ByteString × Bool) → Converter W → Exec (List Data × Converter W)
  | [], conv => .ok ([], conv)
  | (taken, connected) :: calls, conv => do
    let (data, conv) ← Converter.encodeTaken ff conv taken
    let (later, conv) ← sendAll ff calls conv
    return ((if connected then [⟨.audio, data⟩] else []) ++ later, conv)

section

variable {ff : Ffmpeg W}

theorem streamAudio_eq (ff : Ffmpeg W) (ended : Bool) (rounds : List Round)
    (queue : List ByteString) (conv : Converter W) :
    streamAudio ff ended rounds queue conv = (do
      let (sent, conv) ← sendAll ff (capture ended rounds queue).calls conv
      return (sent ++ (capture ended rounds queue).done, (capture ended rounds queue).rest,
        conv)) := by
  induction rounds generalizing ended queue conv with
  | nil => rfl
  | cons round rounds ih =>
    rw [streamAudio, capture]
    split
    · rfl
    · rw [sendAudio, Converter.encode_eq]
      generalize Converter.await round.pushes (queue ++ round.before) = found
      obtain ⟨taken, queue, looks, tries⟩ := found
      dsimp only
      rw [sendAll]
      simp only [bind_assoc, pure_bind, ih, List.append_assoc]

theorem capture_conserves (ended : Bool) (rounds : List Round) (queue : List ByteString) :
    ((capture ended rounds queue).calls.flatMap fun call => call.1.toList) ++
        (capture ended rounds queue).rest =
      queue ++ (capture ended rounds queue).recorded ∧
    ((capture ended rounds queue).ended = true → (capture ended rounds queue).rest = []) := by
  induction rounds generalizing ended queue with
  | nil => exact ⟨(List.append_nil queue).symm, nofun⟩
  | cons round rounds ih =>
    rw [capture]
    split
    · next hend =>
      rw [Bool.and_eq_true, List.isEmpty_iff] at hend
      exact ⟨rfl, fun _ => hend.2⟩
    · obtain ⟨looks, hlooks, hkept, -⟩ := Converter.awaitPackage_conserves round.pushes
        AudioSettings.converterMaxTries 0 (queue ++ round.before)
      rw [Nat.zero_add] at hlooks
      rw [← hlooks, ← Converter.await, ← List.range_eq_range'] at hkept
      generalize Converter.await round.pushes (queue ++ round.before) = found at hkept ⊢
      obtain ⟨taken, left, seen, tries⟩ := found
      dsimp only at hkept ⊢
      obtain ⟨hlater, hdone⟩ := ih (ended || !round.goesOn) left
      refine ⟨?_, hdone⟩
      rw [List.flatMap_cons, List.append_assoc, hlater, ← List.append_assoc, ← hkept]
      simp only [List.append_assoc]

theorem sendAll_defined_iff (calls : List (Option ByteString × Bool)) (conv : Converter W) :
    (∃ result, sendAll ff calls conv = .ok result) ↔
      ∃ t, Transition.runM (Converter.encodeStep ff) conv (calls.map Prod.fst) = .ok t := by
  induction calls generalizing conv with
  | nil => exact iff_of_true ⟨_, rfl⟩ ⟨_, rfl⟩
  | cons call calls ih =>
    obtain ⟨taken, connected⟩ := call
    rw [sendAll, List.map_cons, Transition.runM, Converter.encodeStep]
    cases Converter.encodeTaken ff conv taken with
    | error e =>
      apply iff_of_false
      · rintro ⟨result, hresult⟩
        cases hresult
      · rintro ⟨t, ht⟩
        cases ht
    | ok result =>
      obtain ⟨data, next⟩ := result
      refine Iff.trans ?_ (ih next)
      rw [ok_bind]
      dsimp only
      cases sendAll ff calls next with
      | error e =>
        apply iff_of_false
        · rintro ⟨result, hresult⟩
          cases hresult
        · rintro ⟨result, hresult⟩
          cases hresult
      | ok result => exact iff_of_true ⟨_, rfl⟩ ⟨_, rfl⟩

/-- Whatever ffmpeg answers, the thread goes on exactly as long as it finds nothing more in
the queue behind a call that breaks the encoder. -/
theorem streams_defined_iff (ff : Ffmpeg W) (rounds : List Round) (queue : List ByteString)
    (conv : Converter W) (hencoder : conv.mEncoderContext = true) :
    (∃ result, streamAudio ff false rounds queue conv = .ok result) ↔
      ∀ pre taken post a, (capture false rounds queue).calls.map Prod.fst = pre ++ taken :: post →
        Transition.runM (Converter.encodeStep ff) conv pre = .ok a →
          Converter.BreaksEncoder ff a taken → ∀ later ∈ post, later = none := by
  rw [← Converter.encodes_defined_iff ff conv _ hencoder, ← sendAll_defined_iff, streamAudio_eq]
  cases sendAll ff (capture false rounds queue).calls conv with
  | error e =>
    apply iff_of_false
    · rintro ⟨result, hresult⟩
      cases hresult
    · rintro ⟨result, hresult⟩
      cases hresult
  | ok result => exact iff_of_true ⟨_, rfl⟩ ⟨_, rfl⟩

theorem streams_twice :
    ¬∃ result, streamAudio Converter.muteFfmpeg false
      [⟨[[1], [2]], true, fun _ => [], true⟩, ⟨[], true, fun _ => [], true⟩] []
      Converter.muteConverter = .ok result := by
  rw [streams_defined_iff _ _ _ _ rfl]
  intro h
  have hbreaks : Converter.BreaksEncoder Converter.muteFfmpeg Converter.muteConverter (some [1]) :=
    ⟨_, rfl, rfl⟩
  have hnone := h [] (some [1]) [some [2]] _ rfl rfl hbreaks (some [2]) List.mem_cons_self
  cases hnone

end

end AVStream

/-! ### The playback of a call -/

namespace AudioPlayback

open Playback

variable {W Context : Type}

/-- The converter as the decoder of the playback; what is undefined decodes to nothing. -/
def ffmpegConverter (ff : Ffmpeg W) : AudioConverter (Converter W) where
  decode conv bytes :=
    match Converter.decode ff conv bytes with
    | .ok result => result
    | .error _ => ([], conv)
  valid := Converter.mValid
  makeValid := Converter.makeValid

def loaded : Event → Option ByteString
  | .read incoming => (package incoming).bind fun data =>
      if data.type = .audio then some data.bytes else none
  | _ => none

def stepM (ff : Ffmpeg W) (playback : AudioPlayback (Converter W)) (event : Event) :
    Exec (AudioPlayback (Converter W)) :=
  match loaded event with
  | none => .ok (playback.step (ffmpegConverter ff) event)
  | some bytes => do
    let _ ← Converter.decode ff playback.mAudioConverter bytes
    return playback.step (ffmpegConverter ff) event

/-- What the device plays: the package is copied into the stream that SDL hands over if it
is not longer than that, and is gone if it is. -/
def outputStream (playback : AudioPlayback Context) (stream : ByteString) : ByteString :=
  match playback.mAudioQueue with
  | [] => stream
  | audio :: _ =>
    if audio.length ≤ stream.length then audio ++ stream.drop audio.length else stream

def Fits (playback : AudioPlayback Context) : Prop :=
  ∀ audio ∈ playback.mAudioQueue, audio.length ≤ AudioSettings.bufferSize

/-- The package that the event decodes loses the context of the decoder. -/
def Loses (ff : Ffmpeg W) (playback : AudioPlayback (Converter W)) (event : Event) : Prop :=
  ∃ bytes, loaded event = some bytes ∧ Converter.LosesContext ff playback.mAudioConverter bytes

def Quiet (event : Event) : Prop := ∀ bytes, loaded event = some bytes → bytes = []

section

variable {ff : Ffmpeg W} {converter : AudioConverter Context} {event : Event}

theorem step_of_loaded {playback : AudioPlayback Context} {bytes : ByteString}
    (h : loaded event = some bytes) :
    playback.step converter event = playback.load converter ⟨.audio, bytes⟩ := by
  cases event with
  | start => cases h
  | stop => cases h
  | callback => cases h
  | read incoming =>
    rw [loaded] at h
    obtain ⟨⟨type, content⟩, hpackage, hbytes⟩ := Option.bind_eq_some_iff.mp h
    split at hbytes
    · next haudio =>
      have hsound : type = .audio := haudio
      obtain rfl := Option.some.inj hbytes
      subst hsound
      rw [step, readPackage, hpackage]
      rfl
    · cases hbytes

theorem step_of_not_loaded (converter : AudioConverter Context)
    (playback : AudioPlayback Context) (h : loaded event = none) :
    (playback.step converter event).mAudioConverter = playback.mAudioConverter ∧
      (playback.step converter event).mAudioQueue ⊆ playback.mAudioQueue := by
  have hstop : playback.stop.mAudioConverter = playback.mAudioConverter ∧
      playback.stop.mAudioQueue ⊆ playback.mAudioQueue := by
    rw [stop]
    split
    · exact ⟨rfl, List.nil_subset _⟩
    · exact ⟨rfl, List.Subset.refl _⟩
  cases event with
  | start =>
    rw [step, start]
    split
    · exact ⟨rfl, List.Subset.refl _⟩
    · exact ⟨rfl, List.Subset.refl _⟩
  | stop => exact hstop
  | callback =>
    rw [step, audioOutputCallback]
    split
    · exact ⟨rfl, List.tail_subset _⟩
    · exact ⟨rfl, List.Subset.refl _⟩
  | read incoming =>
    rw [loaded] at h
    rw [step, readPackage]
    cases hpackage : package incoming with
    | none => exact ⟨rfl, List.Subset.refl _⟩
    | some data =>
      rw [hpackage, Option.bind_some] at h
      dsimp only
      split
      · exact hstop
      · rw [load]
        split at h
        · cases h
        · next hother =>
          rw [if_neg hother]
          exact ⟨rfl, List.Subset.refl _⟩

theorem stepM_of_loaded (ff : Ffmpeg W) (playback : AudioPlayback (Converter W))
    {bytes : ByteString} (h : loaded event = some bytes) :
    stepM ff playback event = (do
      let (decoded, conv) ← Converter.load ff playback.mAudioConverter bytes
      return { playback with
        mAudioQueue := playback.mAudioQueue ++ [decoded]
        mAudioConverter := conv }) := by
  rw [stepM, h, Converter.load]
  dsimp only
  rw [step_of_loaded h, load, if_pos rfl, ffmpegConverter]
  dsimp only
  cases hdecode : Converter.decode ff playback.mAudioConverter bytes with
  | error e => rfl
  | ok result => rfl

theorem stepM_of_not_loaded {playback : AudioPlayback (Converter W)} (h : loaded event = none) :
    stepM ff playback event = .ok (playback.step (ffmpegConverter ff) event) := by
  rw [stepM, h]

theorem stepM_eq_step {playback next : AudioPlayback (Converter W)}
    (h : stepM ff playback event = .ok next) : playback.step (ffmpegConverter ff) event = next := by
  rw [stepM] at h
  split at h
  · exact Except.ok.inj h
  · obtain ⟨result, -, hnext⟩ := bind_eq_ok.mp h
    exact Except.ok.inj hnext

/-- Whatever ffmpeg answers, the playback goes through a run exactly as long as nothing but
empty packages follows one that loses the context of the decoder. -/
theorem plays_defined_iff (ff : Ffmpeg W) (playback : AudioPlayback (Converter W))
    (events : List Event) (halive : Converter.Alive playback.mAudioConverter) :
    (∃ t, Transition.runM (stepM ff) playback events = .ok t) ↔
      ∀ pre event post a, events = pre ++ event :: post →
        Transition.runM (stepM ff) playback pre = .ok a → Loses ff a event →
          ∀ later ∈ post, Quiet later := by
  refine Transition.runM_ok_iff (fun a => Converter.Alive a.mAudioConverter)
    (fun a => Converter.Lost a.mAudioConverter) ?_ ?_ ?_ halive
  · intro a event ha
    cases hloaded : loaded event with
    | none =>
      obtain ⟨hsame, -⟩ := step_of_not_loaded (ffmpegConverter ff) a hloaded
      refine ⟨_, stepM_of_not_loaded hloaded, ?_, fun _ => hsame ▸ ha⟩
      rintro ⟨bytes, hbytes, -⟩
      rw [hloaded] at hbytes
      cases hbytes
    | some bytes =>
      obtain ⟨decoded, next, hload, hvalid, hencoder, hparser, hlost, hawaiting⟩ :=
        Converter.load_alive ff ha bytes
      rw [stepM_of_loaded _ _ hloaded, hload]
      refine ⟨_, rfl, ?_, ?_⟩
      · rintro ⟨bytes', hbytes, hloses⟩
        obtain rfl := Option.some.inj (hloaded.symm.trans hbytes)
        exact ⟨hvalid, hlost.mpr hloses, hawaiting (hlost.mpr hloses)⟩
      · intro hkeeps
        refine ⟨hencoder, ?_, hparser⟩
        rw [← Bool.not_eq_false, hlost]
        exact fun hloses => hkeeps ⟨bytes, hloaded, hloses⟩
  · intro a event ha
    cases hloaded : loaded event with
    | none =>
      refine iff_of_true ⟨_, stepM_of_not_loaded hloaded⟩ ?_
      intro bytes hbytes
      rw [hloaded] at hbytes
      cases hbytes
    | some bytes =>
      rw [stepM_of_loaded _ _ hloaded]
      cases bytes with
      | nil =>
        rw [ha.load_nil]
        refine iff_of_true ⟨_, rfl⟩ ?_
        intro bytes hbytes
        exact (Option.some.inj (hloaded.symm.trans hbytes)).symm
      | cons byte bytes =>
        rw [ha.load_cons]
        apply iff_of_false
        · rintro ⟨b, hb⟩
          cases hb
        · intro hquiet
          cases hquiet _ hloaded
  · intro a event b ha hb
    cases hloaded : loaded event with
    | none =>
      obtain ⟨hsame, -⟩ := step_of_not_loaded (ffmpegConverter ff) a hloaded
      rw [stepM_of_not_loaded hloaded] at hb
      obtain rfl := Except.ok.inj hb
      exact hsame ▸ ha
    | some bytes =>
      rw [stepM_of_loaded _ _ hloaded] at hb
      cases bytes with
      | nil =>
        rw [ha.load_nil] at hb
        obtain rfl := Except.ok.inj hb
        exact ⟨ha.valid, ha.decoder, ha.awaiting⟩
      | cons byte bytes =>
        rw [ha.load_cons] at hb
        cases hb

theorem plays_twice :
    ¬∃ t, Transition.runM (stepM Converter.muteFfmpeg) (new 2 Converter.muteConverter)
      [.read [some ⟨.audio, [1]⟩], .read [some ⟨.audio, [2]⟩]] = .ok t := by
  rw [plays_defined_iff _ _ _ ⟨rfl, rfl, rfl⟩]
  intro h
  have hloses : Loses Converter.muteFfmpeg (new 2 Converter.muteConverter)
      (.read [some ⟨.audio, [1]⟩]) := ⟨[1], rfl, rfl, Or.inr rfl⟩
  have hquiet := h [] (.read [some ⟨.audio, [1]⟩]) [.read [some ⟨.audio, [2]⟩]] _ rfl rfl hloses
    (.read [some ⟨.audio, [2]⟩]) List.mem_cons_self
  cases hquiet [2] rfl

theorem Fits.stepM {playback next : AudioPlayback (Converter W)} (h : Fits playback)
    (hstep : stepM ff playback event = .ok next) : Fits next := by
  cases hloaded : loaded event with
  | none =>
    rw [stepM_of_not_loaded hloaded] at hstep
    obtain rfl := Except.ok.inj hstep
    intro audio haudio
    exact h audio ((step_of_not_loaded (ffmpegConverter ff) playback hloaded).2 haudio)
  | some bytes =>
    rw [stepM_of_loaded _ _ hloaded] at hstep
    obtain ⟨⟨decoded, conv⟩, hload, hnext⟩ := bind_eq_ok.mp hstep
    obtain rfl := Except.ok.inj hnext
    intro audio haudio
    rcases List.mem_append.mp haudio with hold | hnew
    · exact h audio hold
    · obtain rfl := List.mem_singleton.mp hnew
      exact Converter.load_bounded hload

/-- Whatever arrives and whatever ffmpeg makes of it, the package at the front of the queue
is played from its first byte to its last. -/
theorem plays_whole (ff : Ffmpeg W) (mDev : UInt32) (conv : Converter W) (events : List Event)
    (t : AudioPlayback (Converter W)) (stream : ByteString)
    (hrun : Transition.runM (stepM ff) (new mDev conv) events = .ok t)
    (hstream : stream.length = AudioSettings.bufferSize) :
    t.outputStream stream =
      t.mAudioQueue.headD [] ++ stream.drop (t.mAudioQueue.headD []).length := by
  have hnew : Fits (new mDev conv) := fun audio haudio => absurd haudio List.not_mem_nil
  have hstep : ∀ (a : AudioPlayback (Converter W)) (e : Event) (b : AudioPlayback (Converter W)),
      Fits a → True → stepM ff a e = .ok b → Fits b := fun _ _ _ ha _ hb => ha.stepM hb
  have hfits := Transition.invariant_runM hstep hnew (fun _ _ => trivial) hrun
  rw [outputStream]
  cases hqueue : t.mAudioQueue with
  | nil => rfl
  | cons audio rest =>
    have hshort : audio.length ≤ stream.length := by
      rw [hstream]
      apply hfits
      rw [hqueue]
      exact List.mem_cons_self
    exact if_pos hshort

/-- A package of one sample, from which the silence in front is cut off. -/
theorem plays_whole_delay :
    ∃ t, Transition.runM (stepM Delay.ffmpeg) (new 2 Delay.converter)
        [.start, .read [some ⟨.audio, [1, 2, 3, 4]⟩]] = .ok t ∧
      t.mAudioQueue = [[1, 2, 3, 4]] ∧
        t.outputStream (List.replicate AudioSettings.bufferSize 0) =
          [1, 2, 3, 4] ++ List.replicate (AudioSettings.bufferSize - 4) 0 := by
  refine ⟨_, rfl, rfl, ?_⟩
  have hwhole := plays_whole Delay.ffmpeg 2 Delay.converter
    [.start, .read [some ⟨.audio, [1, 2, 3, 4]⟩]] _
    (List.replicate AudioSettings.bufferSize 0) rfl List.length_replicate
  exact hwhole.trans (congrArg _ (List.drop_replicate ..))

end

end AudioPlayback

end Skype
