import Skype.AudioConversion

/-!
# The sound of a call

An ffmpeg that never fails is an encoder and a decoder between which the bytes of a package
come back as the codec makes them. What the microphone of one peer records then stands in
the queue of the other one's speaker, package for package.
-/

namespace Skype

open Library
open Ffmpeg (Received Created Frame)

namespace Converter

variable {W : Type}

inductive Drains (receive : W → Received × W) (last : Received) :
    W → List ByteString → W → Prop
  | last {w w' : W} (h : receive w = (last, w')) : Drains receive last w [] w'
  | output {w next w' : W} {bytes : ByteString} {outs : List ByteString}
      (h : receive w = (.output bytes, next)) (hrest : Drains receive last next outs w') :
      Drains receive last w (bytes :: outs) w'

inductive Encodes (ff : Ffmpeg W) : W → List Frame → ByteString → W → Prop
  | nil {w : W} : Encodes ff w [] [] w
  | frame {w writable sent drained w' : W} {frame : Frame} {frames : List Frame}
      {outs : List ByteString} {bytes : ByteString}
      (hwritable : ff.makeWritable w = (true, writable))
      (hsend : ff.sendFrame (some frame) writable = (true, sent))
      (hdrain : Drains ff.receivePacket .again sent outs drained)
      (hrest : Encodes ff drained frames bytes w') :
      Encodes ff w (frame :: frames) (outs.flatten ++ bytes) w'

structure EncodesAll (ff : Ffmpeg W) (w : W) (frames : List Frame) (bytes : ByteString)
    (w' : W) : Prop where
  steps : ∃ (behind flushed ended : W) (first : ByteString) (tail : List ByteString),
    Encodes ff w frames first behind ∧ ff.sendFrame none behind = (true, flushed) ∧
      Drains ff.receivePacket .eof flushed tail ended ∧
        ff.createEncoder ended = (.opened, w') ∧ bytes = first ++ tail.flatten

inductive Decodes (ff : Ffmpeg W) : W → ByteString → Bool → List ByteString → W → Prop
  | nil {w : W} : Decodes ff w [] false [] w
  | skip {w parsed w' : W} {bytes : ByteString} {used : ℕ} {read : Bool}
      {outs : List ByteString} (hne : bytes ≠ [])
      (hparse : ff.parse bytes w = (some (used, []), parsed))
      (hrest : Decodes ff parsed (bytes.drop used) read outs w') :
      Decodes ff w bytes read outs w'
  | packet {w parsed sent drained w' : W} {bytes packet : ByteString} {used : ℕ}
      {read : Bool} {first outs : List ByteString} (hne : bytes ≠ []) (hpacket : packet ≠ [])
      (hparse : ff.parse bytes w = (some (used, packet), parsed))
      (hsend : ff.sendPacket (some packet) parsed = (true, sent))
      (hdrain : Drains ff.receiveFrame .again sent first drained)
      (hrest : Decodes ff drained (bytes.drop used) read outs w') :
      Decodes ff w bytes true (first ++ outs) w'

structure DecodesAll (ff : Ffmpeg W) (w : W) (bytes : ByteString) (outs : List ByteString)
    (w' : W) : Prop where
  steps : ∃ (behind flushed ended : W) (first tail : List ByteString),
    Decodes ff w bytes true first behind ∧ ff.sendPacket none behind = (true, flushed) ∧
      Drains ff.receiveFrame .eof flushed tail ended ∧
        ff.createDecoder ended = (.opened, w') ∧ outs = first ++ tail

structure Ready (ff : Ffmpeg W) (size : ℕ) (conv : Converter W) : Prop where
  valid : conv.mValid = true
  awaiting : conv.mAwaiting = false
  first : conv.mFirstFrame = true
  alive : Alive conv
  frame : conv.mFrame.data.length = size

def trimmed (first : Bool) (padding : ℕ) : List ByteString → ByteString
  | [] => []
  | frame :: frames => frame.drop (if first then padding else 0) ++ frames.flatten

section

variable {ff : Ffmpeg W} {size padding : ℕ} {conv : Converter W} {w w' : W}

theorem trimmed_append (first : Bool) (padding : ℕ) (frames rest : List ByteString) :
    trimmed first padding (frames ++ rest) =
      trimmed first padding frames ++ trimmed (first && frames.isEmpty) padding rest := by
  cases frames with
  | nil => simp [trimmed]
  | cons frame frames =>
    cases rest with
    | nil => simp [trimmed]
    | cons next rest => simp [trimmed]

theorem take_append_take {α : Type} (n : ℕ) (front back : List α) :
    (front.take n ++ back).take n = (front ++ back).take n := by
  rcases Nat.le_total n front.length with hle | hle
  · rw [List.take_append_of_le_length (by rw [List.length_take]; omega), List.take_take,
      Nat.min_self, List.take_append_of_le_length hle]
  · rw [List.take_of_length_le hle]

theorem receivePackets_drains {last : Received} {outs : List ByteString}
    (hlast : last = .again ∨ last = .eof) (h : Drains ff.receivePacket last w outs w') {fuel : ℕ}
    (hfuel : ff.pendingPackets w < fuel) (conv : Converter W) (hconv : conv.ffmpeg = w)
    (tData : ByteString) :
    ∃ awaits, receivePackets ff fuel conv tData =
      .ok (tData ++ outs.flatten, { conv with mAwaiting := awaits, ffmpeg := w' }) := by
  induction h generalizing conv fuel tData with
  | last hlastReply =>
    cases fuel with
    | zero => omega
    | succ fuel =>
      rw [receivePackets, hconv, hlastReply, List.flatten_nil, List.append_nil]
      rcases hlast with rfl | rfl
      · exact ⟨true, rfl⟩
      · exact ⟨false, rfl⟩
  | @output w next w' bytes outs houtput hrest ih =>
    cases fuel with
    | zero => omega
    | succ fuel =>
      have hless := ff.packets_end houtput
      have hnext : ff.pendingPackets next < fuel := by omega
      rw [receivePackets, hconv, houtput, List.flatten_cons, ← List.append_assoc]
      exact ih hnext { conv with mAwaiting := false, ffmpeg := next } rfl (tData ++ bytes)

theorem encodeFrames_drains {last : Received} {outs : List ByteString} {sent : W}
    {frame : Option Frame} (hlast : last = .again ∨ last = .eof) (hvalid : conv.mValid = true)
    (hencoder : conv.mEncoderContext = true)
    (hsend : ff.sendFrame frame conv.ffmpeg = (true, sent))
    (h : Drains ff.receivePacket last sent outs w') (tData : ByteString) :
    ∃ awaits, encodeFrames ff conv frame tData =
      .ok (tData ++ outs.flatten, { conv with mAwaiting := awaits, ffmpeg := w' }) := by
  rw [encodeFrames, if_neg (by rw [hvalid]; decide), if_neg (by rw [hencoder]; decide), hsend]
  exact receivePackets_drains hlast h (Nat.lt_succ_self _) { conv with ffmpeg := sent } rfl tData

theorem fill_slice {package : ByteString} {offset : ℕ} {frame : Frame}
    (hframe : frame.data.length = size) (hinside : offset + size ≤ package.length) :
    fill package size offset frame = ⟨(package.drop offset).take size, frame.nbSamples⟩ := by
  have hlength : ((package.drop offset).take size).length = size := by
    rw [List.length_take, List.length_drop]
    omega
  rw [fill, hlength, if_neg (lt_irrefl size),
    List.drop_of_length_le (le_of_eq hframe), List.append_nil]

def slices (package : ByteString) (size nbSamples i count : ℕ) : List Frame :=
  (List.range' i count).map fun k => ⟨(package.drop (size * k)).take size, nbSamples⟩

theorem encodeSlices_encodes {package : ByteString} {count i : ℕ} {bytes : ByteString}
    (hvalid : conv.mValid = true) (hencoder : conv.mEncoderContext = true)
    (hframe : conv.mFrame.data.length = size) (hinside : size * (i + count) ≤ package.length)
    (h : Encodes ff conv.ffmpeg (slices package size conv.mFrame.nbSamples i count) bytes w')
    (tData : ByteString) :
    ∃ awaits frame, frame.data.length = size ∧ frame.nbSamples = conv.mFrame.nbSamples ∧
      encodeSlices ff package size count i conv tData =
        .ok (tData ++ bytes, { conv with mAwaiting := awaits, mFrame := frame, ffmpeg := w' }) := by
  induction count generalizing conv i bytes tData with
  | zero =>
    cases h
    refine ⟨conv.mAwaiting, conv.mFrame, hframe, rfl, ?_⟩
    rw [List.append_nil]
    rfl
  | succ count ih =>
    have hsplit : slices package size conv.mFrame.nbSamples i (count + 1) =
        ⟨(package.drop (size * i)).take size, conv.mFrame.nbSamples⟩ ::
          slices package size conv.mFrame.nbSamples (i + 1) count := by
      rw [slices, List.range'_succ, List.map_cons]
      rfl
    have hroom : size * i + size ≤ package.length := by
      refine le_trans ?_ hinside
      rw [← Nat.mul_succ]
      exact Nat.mul_le_mul_left size (by omega)
    have hslice : ((package.drop (size * i)).take size).length = size := by
      rw [List.length_take, List.length_drop]
      omega
    rw [hsplit] at h
    cases h with
    | frame hwritable hsend hdrain hrest =>
      rename_i writable sent drained outs rest
      let filled : Converter W := { conv with
        mFrame := ⟨(package.drop (size * i)).take size, conv.mFrame.nbSamples⟩, ffmpeg := writable }
      have hcopy : copyToFrame ff conv package size (size * i) = filled := by
        rw [copyToFrame, hwritable]
        dsimp only [isValid]
        rw [Bool.and_true, if_pos hvalid, fill_slice hframe hroom]
      have hfilled : filled.mValid = true := hvalid
      obtain ⟨awaits, hencode⟩ := encodeFrames_drains (Or.inl rfl) hfilled hencoder hsend hdrain
        tData
      let drainedConv : Converter W := { filled with mAwaiting := awaits, ffmpeg := drained }
      have hdrained : drainedConv.mValid = true := hvalid
      have hnext : size * (i + 1 + count) ≤ package.length := by
        refine le_trans (le_of_eq ?_) hinside
        congr 1
        omega
      obtain ⟨later, frame, hlength, hsamples, hloop⟩ := ih hdrained hencoder hslice hnext hrest
        (tData ++ outs.flatten)
      refine ⟨later, frame, hlength, hsamples, ?_⟩
      rw [encodeSlices, hcopy, hencode, ok_bind]
      dsimp only
      rw [hloop, List.append_assoc]

def framesOf (package : ByteString) (size nbSamples : ℕ) : List Frame :=
  slices package size nbSamples 0 (package.length / size)

theorem flush_ready {behind flushed ended : W} {tail : List ByteString}
    (h : Ready ff size conv) (bytes : ByteString) (awaits : Bool) {frame : Frame}
    (hframe : frame.data.length = size)
    (hsend : ff.sendFrame none behind = (true, flushed))
    (hdrain : Drains ff.receivePacket .eof flushed tail ended)
    (hcreate : ff.createEncoder ended = (.opened, w')) :
    ∃ conv', (do
        let (data, conv) ← encodeFrames ff
          { conv with mAwaiting := awaits, mFrame := frame, ffmpeg := behind } none bytes
        return (data, { createEncoderContext ff conv with mAwaiting := false })) =
        (.ok (bytes ++ tail.flatten, conv') : Exec (ByteString × Converter W)) ∧
      Ready ff size conv' ∧ conv'.mFrame = frame ∧ conv'.ffmpeg = w' := by
  let before : Converter W := { conv with mAwaiting := awaits, mFrame := frame, ffmpeg := behind }
  have hvalid : before.mValid = true := h.valid
  obtain ⟨later, hencode⟩ := encodeFrames_drains (Or.inr rfl) hvalid h.alive.encoder hsend hdrain
    bytes
  have hnew : createEncoderContext ff { before with mAwaiting := later, ffmpeg := ended } =
      { before with mEncoderContext := true, mAwaiting := later, ffmpeg := w' } := by
    rw [createEncoderContext, if_pos hvalid, hcreate]
  refine ⟨{ before with mEncoderContext := true, mAwaiting := false, ffmpeg := w' }, ?_, ?_, rfl,
    rfl⟩
  · rw [hencode, ok_bind]
    dsimp only
    rw [hnew]
    rfl
  · exact ⟨hvalid, rfl, h.first, ⟨rfl, h.alive.decoder, h.alive.parser⟩, hframe⟩

theorem encodeTaken_ready (h : Ready ff size conv) (hsize : ff.frameSize conv.ffmpeg = some size)
    {taken : Option ByteString} {bytes : ByteString}
    (hencodes : EncodesAll ff conv.ffmpeg
      (taken.elim [] fun package => framesOf package size conv.mFrame.nbSamples) bytes w') :
    ∃ conv', encodeTaken ff conv taken = .ok (bytes, conv') ∧ Ready ff size conv' ∧
      conv'.mFrame.nbSamples = conv.mFrame.nbSamples ∧ conv'.ffmpeg = w' := by
  obtain ⟨behind, flushed, ended, first, tail, hframes, hsend, hdrain, hcreate, rfl⟩ := hencodes
  unfold encodeTaken
  cases taken with
  | none =>
    cases hframes
    obtain ⟨conv', hflush, hready, hframe, hworld⟩ := flush_ready h []
      conv.mAwaiting h.frame hsend hdrain hcreate
    exact ⟨conv', hflush, hready, congrArg Frame.nbSamples hframe, hworld⟩
  | some package =>
    have hinside : size * (0 + package.length / size) ≤ package.length := by
      rw [Nat.zero_add]
      exact Nat.mul_div_le _ _
    obtain ⟨awaits, frame, hlength, hsamples, hslices⟩ := encodeSlices_encodes h.valid
      h.alive.encoder h.frame hinside hframes []
    obtain ⟨conv', hflush, hready, hframe, hworld⟩ := flush_ready h
      ([] ++ first) awaits hlength hsend hdrain hcreate
    refine ⟨conv', ?_, hready, (congrArg Frame.nbSamples hframe).trans hsamples, hworld⟩
    dsimp only
    rw [encodePackage, if_neg (by rw [h.alive.encoder]; decide), hsize]
    dsimp only
    rw [if_pos h.valid, hslices, ok_bind]
    exact hflush

def Awaits (last : Received) (awaits : Bool) : Prop :=
  (last = .again ∧ awaits = true) ∨ (last = .eof ∧ awaits = false)

theorem receiveFrames_drains {last : Received} {awaits : Bool} {outs : List ByteString}
    (hpadding : ∀ w, ff.initialPadding w = padding) (hlast : Awaits last awaits)
    (h : Drains ff.receiveFrame last w outs w') {fuel : ℕ}
    (hfuel : ff.pendingFrames w < fuel) (conv : Converter W) (hconv : conv.ffmpeg = w)
    (hvalid : conv.mValid = true) (hencoder : conv.mEncoderContext = true) {decoded : ByteString}
    (hshort : decoded.length ≤ AudioSettings.bufferSize) :
    receiveFrames ff fuel conv decoded =
      .ok ((decoded ++ trimmed conv.mFirstFrame padding outs).take
          AudioSettings.bufferSize,
        { conv with
          mAwaiting := awaits
          mFirstFrame := conv.mFirstFrame && outs.isEmpty
          ffmpeg := w' }) := by
  induction h generalizing conv fuel decoded with
  | last hlastReply =>
    cases fuel with
    | zero => omega
    | succ fuel =>
      rw [receiveFrames, hconv, hlastReply, trimmed, List.append_nil,
        List.take_of_length_le hshort, List.isEmpty_nil, Bool.and_true]
      rcases hlast with ⟨rfl, rfl⟩ | ⟨rfl, rfl⟩
      · rfl
      · rfl
  | @output w next w' bytes outs houtput hrest ih =>
    cases fuel with
    | zero => omega
    | succ fuel =>
      have hless := ff.frames_end houtput
      have hnext : ff.pendingFrames next < fuel := by omega
      have hpushed := length_pushBytes_le hshort
        (bytes.drop (if conv.mFirstFrame then padding else 0))
      have hloop := ih hnext { conv with mFirstFrame := false, ffmpeg := next } rfl hvalid hencoder
        hpushed
      rw [receiveFrames, hconv, houtput]
      dsimp only
      rw [if_neg (by rw [hvalid]; decide), if_neg (by rw [hencoder]; decide), hpadding,
        hloop, pushBytes_eq hshort, take_append_take, trimmed, List.append_assoc]
      cases outs with
      | nil => simp [trimmed]
      | cons out outs => simp [trimmed]

theorem decodeFrames_drains {last : Received} {awaits : Bool} {outs : List ByteString}
    {packet : Option ByteString} {sent : W}
    (hpadding : ∀ w, ff.initialPadding w = padding) (hlast : Awaits last awaits)
    (hvalid : conv.mValid = true) (halive : Alive conv)
    (hsend : ff.sendPacket packet conv.ffmpeg = (true, sent))
    (h : Drains ff.receiveFrame last sent outs w') {decoded : ByteString}
    (hshort : decoded.length ≤ AudioSettings.bufferSize) :
    decodeFrames ff conv packet decoded =
      .ok ((decoded ++ trimmed conv.mFirstFrame padding outs).take
          AudioSettings.bufferSize,
        { conv with
          mAwaiting := awaits
          mFirstFrame := conv.mFirstFrame && outs.isEmpty
          ffmpeg := w' }) := by
  rw [decodeFrames, if_neg (by rw [halive.decoder]; decide), hsend]
  exact receiveFrames_drains hpadding hlast h (Nat.lt_succ_self _) { conv with ffmpeg := sent }
    rfl hvalid halive.encoder hshort

theorem decodeLoop_round {bytes packet : ByteString} {used fuel : ℕ} {parsed : W}
    (hne : bytes ≠ []) (hfuel : bytes.length ≤ fuel + 1) (hvalid : conv.mValid = true)
    (halive : Alive conv) (hparse : ff.parse bytes conv.ffmpeg = (some (used, packet), parsed))
    (decoded : ByteString) :
    (bytes.drop used).length ≤ fuel ∧
      decodeLoop ff (fuel + 1) bytes conv decoded = (do
        let (decoded, conv) ←
          if packet = [] then pure (decoded, { conv with ffmpeg := parsed })
          else decodeFrames ff { conv with ffmpeg := parsed } (some packet) decoded
        decodeLoop ff fuel (bytes.drop used) conv decoded) := by
  obtain ⟨hused, -⟩ := ff.parse_pos hne (congrArg Prod.fst hparse)
  cases bytes with
  | nil => exact absurd rfl hne
  | cons byte bytes =>
    constructor
    · rw [List.length_drop]
      rw [List.length_cons] at hfuel ⊢
      omega
    · rw [decodeLoop, if_neg (by rw [hvalid]; decide),
        if_neg (by rw [halive.parser, halive.decoder]; decide), hparse]

theorem decodeLoop_decodes {bytes : ByteString} {read : Bool} {outs : List ByteString}
    (hpadding : ∀ w, ff.initialPadding w = padding) (h : Decodes ff w bytes read outs w')
    {fuel : ℕ} (hfuel : bytes.length ≤ fuel)
    (conv : Converter W) (hconv : conv.ffmpeg = w) (hvalid : conv.mValid = true)
    (halive : Alive conv) {decoded : ByteString}
    (hshort : decoded.length ≤ AudioSettings.bufferSize) :
    decodeLoop ff fuel bytes conv decoded =
      .ok (true, (decoded ++ trimmed conv.mFirstFrame padding outs).take
          AudioSettings.bufferSize,
        { conv with
          mAwaiting := read || conv.mAwaiting
          mFirstFrame := conv.mFirstFrame && outs.isEmpty
          ffmpeg := w' }) := by
  induction h generalizing conv fuel decoded with
  | nil =>
    cases fuel with
    | zero => simp [decodeLoop, trimmed, List.take_of_length_le hshort, ← hconv]
    | succ fuel => simp [decodeLoop, trimmed, List.take_of_length_le hshort, ← hconv]
  | @skip w parsed w' bytes used read outs hne hparse hrest ih =>
    subst hconv
    cases fuel with
    | zero => exact absurd (List.length_eq_zero_iff.mp (Nat.le_zero.mp hfuel)) hne
    | succ fuel =>
      obtain ⟨hless, hround⟩ := decodeLoop_round hne hfuel hvalid halive hparse decoded
      have hnext : Alive { conv with ffmpeg := parsed } :=
        ⟨halive.encoder, halive.decoder, halive.parser⟩
      rw [hround, if_pos rfl, pure_eq_ok, ok_bind]
      exact ih hless { conv with ffmpeg := parsed } rfl hvalid hnext hshort
  | @packet w parsed sent drained w' bytes packet used read first outs hne hpacket hparse hsend
      hdrain hrest ih =>
    subst hconv
    cases fuel with
    | zero => exact absurd (List.length_eq_zero_iff.mp (Nat.le_zero.mp hfuel)) hne
    | succ fuel =>
      obtain ⟨hless, hround⟩ := decodeLoop_round hne hfuel hvalid halive hparse decoded
      have hnext : Alive { conv with ffmpeg := parsed } :=
        ⟨halive.encoder, halive.decoder, halive.parser⟩
      let next : Converter W := { conv with ffmpeg := parsed }
      have hvalid' : next.mValid = true := hvalid
      have hframes := decodeFrames_drains hpadding (Or.inl ⟨rfl, rfl⟩) hvalid' hnext hsend hdrain
        hshort
      have hloop := ih hless { conv with
          mAwaiting := true
          mFirstFrame := conv.mFirstFrame && first.isEmpty
          ffmpeg := drained } rfl hvalid ⟨halive.encoder, halive.decoder, halive.parser⟩
        (List.length_take_le AudioSettings.bufferSize
          (decoded ++ trimmed conv.mFirstFrame padding first))
      rw [hround, if_neg hpacket, hframes, ok_bind]
      dsimp only
      have hempty : (first ++ outs).isEmpty = (first.isEmpty && outs.isEmpty) := by
        cases first with
        | nil => rfl
        | cons frame first => rfl
      rw [hloop, take_append_take, trimmed_append, List.append_assoc, hempty, Bool.and_assoc,
        Bool.or_true, Bool.true_or]

theorem decode_ready {bytes : ByteString} {outs : List ByteString} (h : Ready ff size conv)
    (hpadding : ∀ w, ff.initialPadding w = padding)
    (hdecodes : DecodesAll ff conv.ffmpeg bytes outs w') :
    decode ff conv bytes =
      .ok ((trimmed true padding outs).take AudioSettings.bufferSize,
        { conv with ffmpeg := w' }) := by
  obtain ⟨behind, flushed, ended, first, tail, hpackets, hsend, hdrain, hcreate, rfl⟩ := hdecodes
  have hnone : ([] : ByteString).length ≤ AudioSettings.bufferSize := Nat.zero_le _
  have hloop := decodeLoop_decodes hpadding hpackets (le_refl bytes.length) conv rfl h.valid
    h.alive hnone
  let read : Converter W := { conv with
    mAwaiting := true, mFirstFrame := first.isEmpty, ffmpeg := behind }
  have hvalid : read.mValid = true := h.valid
  have halive : Alive read := ⟨h.alive.encoder, h.alive.decoder, h.alive.parser⟩
  have hflush := decodeFrames_drains hpadding (Or.inr ⟨rfl, rfl⟩) hvalid halive hsend hdrain
    (List.length_take_le AudioSettings.bufferSize (trimmed true padding first))
  have hnew : createDecoderContext ff { read with
      mAwaiting := false, mFirstFrame := first.isEmpty && tail.isEmpty, ffmpeg := ended } =
      { read with
        mAwaiting := false
        mFirstFrame := first.isEmpty && tail.isEmpty
        mDecoderContext := true
        ffmpeg := w' } := by
    rw [createDecoderContext, if_pos h.valid, hcreate]
  rw [List.nil_append, h.first, Bool.true_and, Bool.true_or] at hloop
  rw [decode, hloop, ok_bind]
  dsimp only
  rw [if_pos rfl, finish, if_pos rfl, hflush, ok_bind]
  dsimp only
  rw [hnew, take_append_take, trimmed_append, Bool.true_and]
  have hsame : (({ read with
      mAwaiting := false
      mFirstFrame := true
      mDecoderContext := true
      ffmpeg := w' }) : Converter W) = { conv with ffmpeg := w' } := by
    rw [Converter.mk.injEq]
    exact ⟨rfl, h.awaiting.symm, h.first.symm, rfl, h.alive.decoder.symm, rfl, rfl, rfl⟩
  rw [pure_eq_ok, ok_bind]
  exact congrArg (fun conv' => Except.ok (_, conv')) hsame

theorem decode_nil (h : Ready ff size conv) : decode ff conv [] = .ok ([], conv) := by
  have hsame : { conv with mFirstFrame := true } = conv := by
    rw [← h.first]
  rw [decode, decodeLoop, ok_bind]
  dsimp only
  rw [if_pos rfl, finish, if_neg (by rw [h.awaiting]; decide), pure_eq_ok, ok_bind]
  exact congrArg (fun conv' => Except.ok ([], conv')) hsame

theorem slices_flatten (package : ByteString) (nbSamples : ℕ) {i count : ℕ}
    (hinside : size * (i + count) ≤ package.length) :
    (slices package size nbSamples i count).flatMap Frame.data =
      (package.drop (size * i)).take (size * count) := by
  induction count generalizing i with
  | zero =>
    rw [Nat.mul_zero, List.take_zero]
    rfl
  | succ count ih =>
    have hnext : size * (i + 1 + count) ≤ package.length := by
      refine le_trans (le_of_eq ?_) hinside
      congr 1
      omega
    have hrest := ih hnext
    rw [slices, List.map_eq_flatMap] at hrest ⊢
    rw [List.range'_succ, List.flatMap_cons, List.flatMap_append, hrest, List.flatMap_singleton,
      Nat.mul_succ size count, Nat.add_comm (size * count), List.take_add, List.drop_drop,
      Nat.mul_succ]

theorem full_of_mem_framesOf {package : ByteString} {nbSamples : ℕ} {frame : Frame}
    (h : frame ∈ framesOf package size nbSamples) :
    frame.data.length = size ∧ frame.nbSamples = nbSamples := by
  obtain ⟨k, hk, rfl⟩ := List.mem_map.mp h
  have hcount : k < package.length / size := by
    simpa using (List.mem_range'_1.mp hk).2
  have hinside : size * k + size ≤ package.length := by
    rw [← Nat.mul_succ]
    exact le_trans (Nat.mul_le_mul_left _ hcount) (Nat.mul_div_le _ _)
  refine ⟨?_, rfl⟩
  rw [List.length_take, List.length_drop]
  omega

theorem framesOf_flatten {package : ByteString} (hdvd : size ∣ package.length) (nbSamples : ℕ) :
    (framesOf package size nbSamples).flatMap Frame.data = package := by
  have hwhole : size * (package.length / size) = package.length := Nat.mul_div_cancel' hdvd
  rw [framesOf, slices_flatten package nbSamples (by rw [Nat.zero_add, hwhole]), Nat.mul_zero,
    List.drop_zero, hwhole, List.take_length]

end

end Converter

/-! ### A codec -/

/-- An encoder and a decoder that never fail. What frames of the full size are encoded to
comes back behind the padding and before what the codec adds at the end; of no frames
nothing is sent. -/
structure Codec {W : Type} (ff : Ffmpeg W) where
  size : ℕ
  samples : ℕ
  padding : ℕ
  lossy : ByteString → ByteString
  EncoderReady : W → Prop
  DecoderReady : W → Prop
  frameSize_eq : ∀ w, ff.frameSize w = some size
  initialPadding_eq : ∀ w, ff.initialPadding w = padding
  length_lossy : ∀ bytes, (lossy bytes).length = bytes.length
  encodes : ∀ {w frames}, EncoderReady w →
    (∀ frame ∈ frames, frame.data.length = size ∧ frame.nbSamples = samples) →
      ∃ bytes w', Converter.EncodesAll ff w frames bytes w' ∧ EncoderReady w' ∧
        (frames = [] → bytes = []) ∧
          (frames ≠ [] → ∀ v, DecoderReady v → ∃ pad first rest tail v',
            Converter.DecodesAll ff v bytes ((pad ++ first) :: rest) v' ∧ DecoderReady v' ∧
              pad.length = padding ∧
                first ++ rest.flatten = lossy (frames.flatMap Frame.data) ++ tail)

namespace Codec

open Converter

variable {W : Type} {ff : Ffmpeg W}

structure Mic (codec : Codec ff) (conv : Converter W) : Prop where
  ready : Ready ff codec.size conv
  samples : conv.mFrame.nbSamples = codec.samples
  encoder : codec.EncoderReady conv.ffmpeg

structure Speaker (codec : Codec ff) (conv : Converter W) : Prop where
  ready : Ready ff codec.size conv
  decoder : codec.DecoderReady conv.ffmpeg

def sound (codec : Codec ff) (taken : Option ByteString) : ByteString := taken.elim [] codec.lossy

/-- Every speaker turns the bytes into the sound of what was taken. -/
def Carries (codec : Codec ff) (taken : Option ByteString) (bytes : ByteString) : Prop :=
  ∀ conv, codec.Speaker conv →
    ∃ conv', Converter.load ff conv bytes = .ok (codec.sound taken, conv') ∧ codec.Speaker conv'

theorem carries_nil (codec : Codec ff) : codec.Carries none [] := by
  intro conv hspeaker
  refine ⟨conv, ?_, hspeaker⟩
  rw [Converter.load, decode_nil hspeaker.ready, ok_bind]
  dsimp only
  rw [if_pos hspeaker.ready.valid]
  rfl

theorem trimmed_restored (codec : Codec ff) {pad first tail package : ByteString}
    {rest : List ByteString} (hpad : pad.length = codec.padding)
    (hrestored : first ++ rest.flatten = codec.lossy package ++ tail)
    (hlength : package.length = AudioSettings.bufferSize) :
    (trimmed true codec.padding ((pad ++ first) :: rest)).take AudioSettings.bufferSize =
      codec.lossy package := by
  rw [trimmed, if_pos rfl, ← hpad, List.drop_left, hrestored,
    List.take_left' ((codec.length_lossy package).trans hlength)]

theorem encodeTaken_carries (codec : Codec ff) (hdvd : codec.size ∣ AudioSettings.bufferSize)
    {conv : Converter W} (hmic : codec.Mic conv) {taken : Option ByteString}
    (hlength : ∀ package ∈ taken, package.length = AudioSettings.bufferSize) :
    ∃ bytes conv', encodeTaken ff conv taken = .ok (bytes, conv') ∧ codec.Mic conv' ∧
      codec.Carries taken bytes := by
  have hfull : ∀ frame ∈ taken.elim [] fun package =>
      framesOf package codec.size conv.mFrame.nbSamples,
      frame.data.length = codec.size ∧ frame.nbSamples = codec.samples := by
    intro frame hframe
    cases taken with
    | none => cases hframe
    | some package =>
      rw [← hmic.samples]
      exact full_of_mem_framesOf hframe
  obtain ⟨bytes, w', hencodes, hready, hnone, hsome⟩ := codec.encodes hmic.encoder hfull
  obtain ⟨conv', hencode, hnext, hsamples, hworld⟩ := encodeTaken_ready hmic.ready
    (codec.frameSize_eq conv.ffmpeg) hencodes
  refine ⟨bytes, conv', hencode, ⟨hnext, hsamples.trans hmic.samples, hworld ▸ hready⟩, ?_⟩
  cases taken with
  | none =>
    obtain rfl := hnone rfl
    exact codec.carries_nil
  | some package =>
    have hpackage : package.length = AudioSettings.bufferSize := hlength package rfl
    have hjoined := framesOf_flatten (hpackage ▸ hdvd) conv.mFrame.nbSamples
    have hne : framesOf package codec.size conv.mFrame.nbSamples ≠ [] := by
      intro hempty
      rw [hempty, List.flatMap_nil] at hjoined
      rw [← hjoined] at hpackage
      cases hpackage
    intro speaker hspeaker
    obtain ⟨pad, first, rest, tail, v', hdecodes, hdecoder, hpad, hrestored⟩ :=
      hsome hne speaker.ffmpeg hspeaker.decoder
    rw [Option.elim_some, hjoined] at hrestored
    have hdecode := decode_ready hspeaker.ready codec.initialPadding_eq hdecodes
    rw [codec.trimmed_restored hpad hrestored hpackage] at hdecode
    refine ⟨{ speaker with ffmpeg := v' }, ?_, ?_, hdecoder⟩
    · rw [Converter.load, hdecode, ok_bind]
      dsimp only
      rw [if_pos hspeaker.ready.valid]
      rfl
    · obtain ⟨hvalid, hawaiting, hfirst, ⟨hencoder, halive, hparser⟩, hframe⟩ := hspeaker.ready
      exact ⟨hvalid, hawaiting, hfirst, ⟨hencoder, halive, hparser⟩, hframe⟩

theorem sendAll_carries (codec : Codec ff) (hdvd : codec.size ∣ AudioSettings.bufferSize)
    {conv : Converter W} (hmic : codec.Mic conv) {calls : List (Option ByteString × Bool)}
    (hlength : ∀ call ∈ calls, ∀ package ∈ call.1, package.length = AudioSettings.bufferSize) :
    ∃ packages conv', AVStream.sendAll ff calls conv =
        .ok (packages.map fun bytes => ⟨.audio, bytes⟩, conv') ∧
      List.Forall₂ codec.Carries ((calls.filter Prod.snd).map Prod.fst) packages := by
  induction calls generalizing conv with
  | nil => exact ⟨[], conv, rfl, .nil⟩
  | cons call calls ih =>
    obtain ⟨taken, connected⟩ := call
    obtain ⟨hfirst, hrest⟩ := List.forall_mem_cons.mp hlength
    obtain ⟨bytes, mid, hencode, hmid, hcarries⟩ := codec.encodeTaken_carries hdvd hmic hfirst
    obtain ⟨packages, conv', hsend, hall⟩ := ih hmid hrest
    rw [AVStream.sendAll, hencode, ok_bind]
    dsimp only
    rw [hsend, ok_bind]
    cases connected with
    | false => exact ⟨packages, conv', rfl, hall⟩
    | true => exact ⟨bytes :: packages, conv', rfl, .cons hcarries hall⟩

end Codec

namespace AudioPlayback

variable {W : Type} {ff : Ffmpeg W}

def played {Context : Type} (playback : AudioPlayback Context) : Event → List ByteString
  | .callback =>
    if playback.mAudioOutput.mStatus = .opened then playback.mAudioQueue.head?.toList else []
  | _ => []

def playedAll (ff : Ffmpeg W) : AudioPlayback (Converter W) → List Event → List ByteString
  | _, [] => []
  | playback, event :: events =>
    playback.played event ++ playedAll ff (playback.step (ffmpegConverter ff) event) events

/-- An event of a call that goes on. -/
def Listens : Event → Prop
  | .stop => False
  | .read incoming => ∀ data ∈ Playback.package incoming, data.type = .audio
  | _ => True

theorem step_of_silent {Context : Type} (converter : AudioConverter Context)
    (playback : AudioPlayback Context) {event : Event} (h : loaded event = none) :
    (playback.played event ++ (playback.step converter event).mAudioQueue).Sublist
        playback.mAudioQueue ∧
      (Listens event → playback.played event ++ (playback.step converter event).mAudioQueue =
        playback.mAudioQueue) := by
  have hstop : playback.stop.mAudioQueue.Sublist playback.mAudioQueue := by
    rw [stop]
    split
    · exact List.nil_sublist _
    · exact List.Sublist.refl _
  cases event with
  | stop => exact ⟨hstop, False.elim⟩
  | start =>
    have hsame : playback.start.mAudioQueue = playback.mAudioQueue := by
      rw [start]
      split
      · rfl
      · rfl
    exact ⟨hsame ▸ List.Sublist.refl _, fun _ => hsame⟩
  | read incoming =>
    rw [loaded] at h
    rw [step, readPackage]
    cases hpackage : Playback.package incoming with
    | none => exact ⟨List.Sublist.refl _, fun _ => rfl⟩
    | some data =>
      rw [hpackage, Option.bind_some] at h
      have haudio : data.type ≠ .audio := by
        intro haudio
        rw [if_pos haudio] at h
        cases h
      refine ⟨?_, fun hlistens => absurd (hlistens data hpackage) haudio⟩
      dsimp only
      split
      · exact hstop
      · rw [load, if_neg haudio]
        exact List.Sublist.refl _
  | callback =>
    have hsame : playback.played .callback ++
        (playback.step converter .callback).mAudioQueue = playback.mAudioQueue := by
      rw [played, step, audioOutputCallback]
      split
      · cases playback.mAudioQueue with
        | nil => rfl
        | cons audio rest => rfl
      · rfl
    exact ⟨hsame ▸ List.Sublist.refl _, fun _ => hsame⟩

theorem played_of_loaded {Context : Type} (playback : AudioPlayback Context) {event : Event}
    {bytes : ByteString} (h : loaded event = some bytes) : playback.played event = [] := by
  cases event with
  | read incoming => rfl
  | start => cases h
  | stop => cases h
  | callback => cases h

theorem plays_sound (codec : Codec ff) {takens : List (Option ByteString)}
    {packages : List ByteString} (hall : List.Forall₂ codec.Carries takens packages)
    {events : List Event} (hloaded : events.filterMap loaded = packages)
    {playback : AudioPlayback (Converter W)} (hspeaker : codec.Speaker playback.mAudioConverter) :
    ∃ t, Transition.runM (stepM ff) playback events = .ok t ∧
      (playedAll ff playback events ++ t.mAudioQueue).Sublist
        (playback.mAudioQueue ++ takens.map codec.sound) ∧
      ((∀ event ∈ events, Listens event) → playedAll ff playback events ++ t.mAudioQueue =
        playback.mAudioQueue ++ takens.map codec.sound) := by
  induction events generalizing takens packages playback with
  | nil =>
    obtain rfl := hloaded
    cases hall
    have hsame : playedAll ff playback [] ++ playback.mAudioQueue =
        playback.mAudioQueue ++ [] := (List.append_nil _).symm
    exact ⟨playback, rfl, hsame ▸ List.Sublist.refl _, fun _ => hsame⟩
  | cons event events ih =>
    cases hevent : loaded event with
    | none =>
      rw [List.filterMap_cons_none hevent] at hloaded
      have hsame := (step_of_not_loaded (ffmpegConverter ff) playback hevent).1
      obtain ⟨hkept, hlistened⟩ := step_of_silent (ffmpegConverter ff) playback hevent
      obtain ⟨t, hrun, hsublist, hplayed⟩ := ih hall hloaded (hsame ▸ hspeaker)
      refine ⟨t, Transition.runM_cons_eq_ok.mpr ⟨_, stepM_of_not_loaded hevent, hrun⟩, ?_, ?_⟩
      · rw [playedAll, List.append_assoc]
        refine (hsublist.append_left _).trans ?_
        rw [← List.append_assoc]
        exact hkept.append_right _
      · intro hlistens
        obtain ⟨hfirst, hrest⟩ := List.forall_mem_cons.mp hlistens
        rw [playedAll, List.append_assoc, hplayed hrest, ← List.append_assoc, hlistened hfirst]
    | some bytes =>
      rw [List.filterMap_cons_some hevent] at hloaded
      subst hloaded
      cases hall with
      | cons hcarries hall =>
        rename_i taken takens
        obtain ⟨conv', hload, hnext⟩ := hcarries playback.mAudioConverter hspeaker
        have hstep := stepM_of_loaded ff playback hevent
        rw [hload, ok_bind] at hstep
        let next : AudioPlayback (Converter W) :=
          { playback with
            mAudioQueue := playback.mAudioQueue ++ [codec.sound taken]
            mAudioConverter := conv' }
        have hready : codec.Speaker next.mAudioConverter := hnext
        have hqueue : next.mAudioQueue ++ takens.map codec.sound =
            playback.mAudioQueue ++ (taken :: takens).map codec.sound := by
          rw [List.map_cons, List.append_assoc, List.singleton_append]
        obtain ⟨t, hrun, hsublist, hplayed⟩ := ih hall rfl hready
        refine ⟨t, Transition.runM_cons_eq_ok.mpr ⟨_, hstep, hrun⟩, ?_⟩
        rw [playedAll, stepM_eq_step hstep, played_of_loaded playback hevent, List.nil_append,
          ← hqueue]
        exact ⟨hsublist, fun hlistens => hplayed (List.forall_mem_cons.mp hlistens).2⟩

theorem forall₂_of_sublist {α β : Type*} {R : α → β → Prop} {xs : List α} {ys zs : List β}
    (hall : List.Forall₂ R xs ys) (h : zs.Sublist ys) :
    ∃ ws, ws.Sublist xs ∧ List.Forall₂ R ws zs := by
  induction h generalizing xs with
  | slnil =>
    cases hall
    exact ⟨[], .slnil, .nil⟩
  | cons y h ih =>
    cases hall with
    | cons hfirst hrest =>
      obtain ⟨ws, hws, hzs⟩ := ih hrest
      exact ⟨ws, hws.cons _, hzs⟩
  | cons_cons y h ih =>
    cases hall with
    | cons hfirst hrest =>
      obtain ⟨ws, hws, hzs⟩ := ih hrest
      exact ⟨_ :: ws, hws.cons_cons _, .cons hfirst hzs⟩

/-- The microphone of one peer is streamed to the speaker of the other, which may miss some of
the packages and read the others in their order. Each one that it reads is played at most
once and in its turn, with the sound that the codec makes of what was taken from the queue,
and without a stop it is played or waits. -/
theorem audio_arrives (codec : Codec ff) (rounds : List AVStream.Round) (queue : List ByteString)
    (mic : Converter W) (playback : AudioPlayback (Converter W))
    (hdvd : codec.size ∣ AudioSettings.bufferSize)
    (hlength : ∀ package ∈ queue ++ (AVStream.capture false rounds queue).recorded,
      package.length = AudioSettings.bufferSize)
    (hmic : codec.Mic mic) (hspeaker : codec.Speaker playback.mAudioConverter) :
    let capture := AVStream.capture false rounds queue
    let sent := (capture.calls.filter Prod.snd).map Prod.fst
    (capture.calls.flatMap fun call => call.1.toList) ++ capture.rest =
        queue ++ capture.recorded ∧
      (capture.ended = true → capture.rest = []) ∧
      ∃ packages mic', AVStream.streamAudio ff false rounds queue mic =
          .ok ((packages.map fun bytes => ⟨.audio, bytes⟩) ++ capture.done, capture.rest, mic') ∧
        ∀ events, (events.filterMap loaded).Sublist packages →
          ∃ arrived t, arrived.Sublist sent ∧
            arrived.length = (events.filterMap loaded).length ∧
            (events.filterMap loaded = packages → arrived = sent) ∧
            Transition.runM (stepM ff) playback events = .ok t ∧
            (playedAll ff playback events ++ t.mAudioQueue).Sublist
              (playback.mAudioQueue ++ arrived.map codec.sound) ∧
            ((∀ event ∈ events, Listens event) → playedAll ff playback events ++ t.mAudioQueue =
              playback.mAudioQueue ++ arrived.map codec.sound) := by
  intro capture sent
  obtain ⟨hconserved, hended⟩ := AVStream.capture_conserves false rounds queue
  refine ⟨hconserved, hended, ?_⟩
  have htaken : ∀ call ∈ capture.calls, ∀ package ∈ call.1,
      package.length = AudioSettings.bufferSize := by
    intro call hcall package hpackage
    apply hlength
    rw [← hconserved]
    apply List.mem_append_left
    exact List.mem_flatMap.mpr ⟨call, hcall, Option.mem_toList.mpr hpackage⟩
  obtain ⟨packages, mic', hsend, hall⟩ := codec.sendAll_carries hdvd hmic htaken
  refine ⟨packages, mic', ?_, ?_⟩
  · rw [AVStream.streamAudio_eq, hsend, ok_bind]
    rfl
  · intro events hloaded
    obtain ⟨arrived, hsublist, hcarried⟩ := forall₂_of_sublist hall hloaded
    have hlengths := hcarried.length_eq
    obtain ⟨t, hrun, hplayed⟩ := plays_sound codec hcarried rfl hspeaker
    refine ⟨arrived, t, hsublist, hlengths, ?_, hrun, hplayed⟩
    intro hwhole
    apply hsublist.eq_of_length
    rw [hlengths, hwhole]
    exact hall.length_eq.symm

end AudioPlayback

namespace Delay

open Converter

theorem encodes_frames (held : List ByteString) (started ended : Bool) (frames : List Frame) :
    Encodes ffmpeg ⟨[], false, held, started, ended⟩ frames (frames.flatMap Frame.data)
      ⟨[], false, held, started, ended⟩ := by
  induction frames with
  | nil => exact .nil
  | cons frame frames ih =>
    have hlast : Drains ffmpeg.receivePacket .again ⟨[], false, held, started, ended⟩ []
        ⟨[], false, held, started, ended⟩ := .last rfl
    have hdrain : Drains ffmpeg.receivePacket .again ⟨[frame.data], false, held, started, ended⟩
        [frame.data] ⟨[], false, held, started, ended⟩ := .output rfl hlast
    have hframe : Encodes ffmpeg ⟨[], false, held, started, ended⟩ (frame :: frames)
        ([frame.data].flatten ++ frames.flatMap Frame.data) ⟨[], false, held, started, ended⟩ :=
      .frame rfl rfl hdrain ih
    simpa using hframe

theorem decodes_packet (packets : List ByteString) (flushed started : Bool) {frame : Frame}
    {bytes : ByteString} {read : Bool} {outs : List ByteString} {w' : Delay}
    (hframe : frame.data.length = 4)
    (hrest : Decodes ffmpeg ⟨packets, flushed, [], true, false⟩ bytes read outs w') :
    Decodes ffmpeg ⟨packets, flushed, [], started, false⟩ (frame.data ++ bytes) true
      ([if started then frame.data else [0, 0, 0, 0] ++ frame.data] ++ outs) w' := by
  have hpacket : frame.data ≠ [] := by
    rw [← List.length_pos_iff, hframe]
    decide
  have hne : frame.data ++ bytes ≠ [] := List.append_ne_nil_of_left_ne_nil hpacket bytes
  have hmin : min 4 (frame.data ++ bytes).length = 4 := by
    rw [List.length_append]
    omega
  have hparse : ffmpeg.parse (frame.data ++ bytes) ⟨packets, flushed, [], started, false⟩ =
      (some (4, frame.data), ⟨packets, flushed, [], started, false⟩) := by
    rw [ffmpeg]
    dsimp only
    rw [hmin, List.take_left' hframe]
  have hlast : Drains ffmpeg.receiveFrame .again ⟨packets, flushed, [], true, false⟩ []
      ⟨packets, flushed, [], true, false⟩ := .last rfl
  have hdrain : Drains ffmpeg.receiveFrame .again
      ⟨packets, flushed, [if started then frame.data else [0, 0, 0, 0] ++ frame.data], true, false⟩
      [if started then frame.data else [0, 0, 0, 0] ++ frame.data]
      ⟨packets, flushed, [], true, false⟩ := .output rfl hlast
  have hbytes : (frame.data ++ bytes).drop 4 = bytes := List.drop_left' hframe
  rw [← hbytes] at hrest
  exact .packet hne hpacket hparse rfl hdrain hrest

theorem decodes_frames (packets : List ByteString) (flushed : Bool) {frames : List Frame}
    (h : ∀ frame ∈ frames, frame.data.length = 4) :
    Decodes ffmpeg ⟨packets, flushed, [], true, false⟩ (frames.flatMap Frame.data)
      (!frames.isEmpty) (frames.map Frame.data) ⟨packets, flushed, [], true, false⟩ := by
  induction frames with
  | nil => exact .nil
  | cons frame frames ih =>
    obtain ⟨hframe, hframes⟩ := List.forall_mem_cons.mp h
    exact decodes_packet packets flushed true hframe (ih hframes)

def codec : Codec ffmpeg where
  size := 4
  samples := 1
  padding := 4
  lossy := id
  EncoderReady w := w.packets = [] ∧ w.flushed = false
  DecoderReady w := w.frames = [] ∧ w.started = false ∧ w.ended = false
  frameSize_eq _ := rfl
  initialPadding_eq _ := rfl
  length_lossy _ := rfl
  encodes {w frames} hready hfull := by
    obtain ⟨packets, flushed, held, started, ended⟩ := w
    obtain ⟨rfl, rfl⟩ := hready
    have hlength : ∀ frame ∈ frames, frame.data.length = 4 := fun frame h => (hfull frame h).1
    have heof : Drains ffmpeg.receivePacket .eof ⟨[], true, held, started, ended⟩ []
        ⟨[], true, held, started, ended⟩ := .last rfl
    refine ⟨frames.flatMap Frame.data, ⟨[], false, held, started, ended⟩, ?_, ⟨rfl, rfl⟩, ?_, ?_⟩
    · exact ⟨_, _, _, _, [], encodes_frames held started ended frames, rfl, heof, rfl,
        (List.append_nil _).symm⟩
    · rintro rfl
      rfl
    · intro hne v hv
      obtain ⟨packets, flushed, held, started, ended⟩ := v
      obtain ⟨rfl, rfl, rfl⟩ := hv
      cases frames with
      | nil => exact absurd rfl hne
      | cons frame frames =>
        obtain ⟨hframe, hframes⟩ := List.forall_mem_cons.mp hlength
        have hdecodes := decodes_packet packets flushed false hframe
          (decodes_frames packets flushed hframes)
        have hflush : Drains ffmpeg.receiveFrame .eof ⟨packets, flushed, [], true, true⟩ []
            ⟨packets, flushed, [], true, true⟩ := .last rfl
        refine ⟨[0, 0, 0, 0], frame.data, frames.map Frame.data, [],
          ⟨packets, flushed, [], false, false⟩, ?_, ⟨rfl, rfl, rfl⟩, rfl, ?_⟩
        · exact ⟨_, _, _, _, [], hdecodes, rfl, hflush, rfl, (List.append_nil _).symm⟩
        · rw [id, List.append_nil, List.flatMap_cons, List.flatMap_def]

theorem converter_ready : Ready ffmpeg codec.size converter := ⟨rfl, rfl, rfl, ⟨rfl, rfl, rfl⟩, rfl⟩

theorem audio_arrives_delay :
    ∃ (packages : List ByteString) (mic' : Converter Delay) (t : AudioPlayback (Converter Delay)),
      AVStream.streamAudio ffmpeg false
        [⟨[List.replicate AudioSettings.bufferSize 1], true, fun _ => [], true⟩,
          ⟨[], false, fun _ => [], true⟩] [] converter =
        .ok ((packages.map fun bytes => ⟨.audio, bytes⟩) ++ [⟨.done, []⟩], [], mic') ∧
      Transition.runM (AudioPlayback.stepM ffmpeg) (AudioPlayback.new 2 converter)
          ((packages.map fun bytes => .read [some ⟨.audio, bytes⟩]) ++ [.start, .callback]) =
        .ok t ∧
      AudioPlayback.playedAll ffmpeg (AudioPlayback.new 2 converter)
          ((packages.map fun bytes => .read [some ⟨.audio, bytes⟩]) ++ [.start, .callback]) ++
        t.mAudioQueue = [List.replicate AudioSettings.bufferSize 1] := by
  have hlength : ∀ package ∈ [List.replicate AudioSettings.bufferSize (1 : UInt8)],
      package.length = AudioSettings.bufferSize := by
    intro package hpackage
    obtain rfl := List.mem_singleton.mp hpackage
    exact List.length_replicate
  obtain ⟨-, -, packages, mic', hsend, harrives⟩ := AudioPlayback.audio_arrives codec
    [⟨[List.replicate AudioSettings.bufferSize 1], true, fun _ => [], true⟩,
      ⟨[], false, fun _ => [], true⟩] [] converter (AudioPlayback.new 2 converter) (by decide)
    hlength ⟨converter_ready, rfl, rfl, rfl⟩ ⟨converter_ready, rfl, rfl, rfl⟩
  let events : List AudioPlayback.Event :=
    (packages.map fun bytes => .read [some ⟨.audio, bytes⟩]) ++ [.start, .callback]
  have hloaded : events.filterMap AudioPlayback.loaded = packages := by
    have hread : (AudioPlayback.loaded ∘ fun bytes => .read [some ⟨.audio, bytes⟩]) = some := rfl
    rw [List.filterMap_append, List.filterMap_map, hread, List.filterMap_some]
    exact List.append_nil packages
  have hlistens : ∀ event ∈ events, AudioPlayback.Listens event := by
    intro event hevent
    rcases List.mem_append.mp hevent with hread | hplay
    · obtain ⟨bytes, -, rfl⟩ := List.mem_map.mp hread
      intro data hdata
      cases hdata
      rfl
    · simp only [List.mem_cons, List.not_mem_nil, or_false] at hplay
      rcases hplay with rfl | rfl
      · trivial
      · trivial
  obtain ⟨arrived, t, -, -, hall, hrun, -, hplayed⟩ := harrives events
    (hloaded ▸ List.Sublist.refl _)
  obtain rfl := hall hloaded
  exact ⟨packages, mic', t, hsend, hrun, hplayed hlistens⟩

end Delay

end Skype
