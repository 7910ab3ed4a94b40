import Plughost.Ipc.RingProtocol
import Plughost.Vst3.PluginChain

/-! `RunPassthrough` between two rings whose other ends the host drives. One
step of the audio thread is one access; the host steps in between as it likes. -/
namespace Plughost.Audio
open Plughost.Runs Plughost.Ipc Plughost.Vst3

structure BlockHeader where
  seq : BitVec 64
  frames : BitVec 32
  channels : BitVec 32
  sampleRate : BitVec 32
  flags : BitVec 32
  reserved : List (BitVec 8)

/-- A slot: the header and the payload area behind it. -/
structure Block (α : Type) extends BlockHeader where
  payload : Buffer α

/-- The negotiated geometry: both rings' slots hold a mono block of `maxBlockSize`
frames, as `main` opens the rings and builds the chain from the same constants. -/
structure Config where
  inputRing : RingGeometry
  outputRing : RingGeometry
  maxBlockSize : Nat
  inputFits : 64 + 4 * maxBlockSize ≤ inputRing.slotBytes.toNat
  outputFits : 64 + 4 * maxBlockSize ≤ outputRing.slotBytes.toNat

/-- What became of an examined input block: dropped with the output counters
the audio thread read, or relayed through the chain as it then was. -/
inductive Verdict (O α : Type) where
  | dropped (head tail : BitVec 64)
  | relayed (chain : Option (PluginChain O α))

def Verdict.isDropped {O α : Type} : Verdict O α → Bool
  | .dropped _ _ => true
  | .relayed _ => false

/-- The audio thread's next access. `fault` is an access outside a slot. -/
inductive Pc where
  | checkStop | checkControl | wait
  | readTail | readHead | acquireHead | acquireTail
  | dropTail | dropStore | dropCount
  | copySeq | copyFrames | copyChannels | copySampleRate | copyFlags | zeroReserved | payload
  | publishHead | publishStore | releaseTail | releaseStore | count | signal
  | returned | fault
  deriving DecidableEq, Repr

structure Loop (O α : Type) where
  input : ShmRing (Block α)
  output : ShmRing (Block α)
  chain : Option (PluginChain O α)
  inputPosts : Nat
  outputPosts : Nat
  stopFlag : Bool
  controlStopFlag : Bool
  processed : BitVec 64
  dropped : BitVec 64
  pc : Pc
  current : Option (PluginChain O α)
  verdicts : List (Verdict O α)

inductive LoopAct (O α : Type) where
  /-- The audio thread steps; `woken` is what a `Wait` returns. -/
  | audio (woken : Bool)
  /-- The host's ends of the two rings, and its `sem_post`. -/
  | produce (a : ProducerAct (Block α))
  | consume (a : ConsumerAct)
  | post
  /-- The control thread changes the chain. -/
  | control (change : PluginChain O α → PluginChain O α)
  | stop
  | controlStop

namespace Loop
variable {O α : Type}

/-- `frames * channels * sizeof(float)` in `std::size_t`. -/
def payloadBytes (b : Block α) : BitVec 64 := b.frames.setWidth 64 * b.channels.setWidth 64 * 4

/-- Bytes of payload behind the header in a slot of the ring. -/
def payloadRoom (g : RingGeometry) : Nat := g.slotBytes.toNat - 64

/-- The block `in` points at. -/
def held (s : Loop O α) : Option (Block α) :=
  match s.input.consumer with
  | .holding slot => some (s.input.slots slot)
  | _ => none

/-- Read the input slot, write the output slot, go on. -/
def copy (s : Loop O α) (write : Block α → Block α → Block α) (next : Pc) : Option (Loop O α) :=
  match s.held with
  | none => none
  | some b => s.input.look.bind fun input => (s.output.fill (write b)).map fun output =>
      { s with input, output, pc := next }

/-- Samples that `PluginChain::Process` touches behind each header. -/
def chainSamples (ch : PluginChain O α) (b : Block α) : Nat := (min b.frames.toInt ch.maxBlockSize).toNat

/-- `pluginChain->Process(inPayload, outPayload, frames)`, within the two slots. -/
def runChain (cfg : Config) (proc : SlotFormat → Processor O α) (s : Loop O α) (ch : PluginChain O α)
    (b : Block α) : Option (Loop O α) :=
  if 4 * chainSamples ch b ≤ payloadRoom cfg.inputRing ∧
      4 * chainSamples ch b ≤ payloadRoom cfg.outputRing then
    s.output.acquiredSlot.bind fun slot =>
      let result := ch.process proc b.payload (s.output.slots slot).payload b.frames.toInt
      (s.copy (fun _ out => { out with payload := result.out }) .publishHead).map fun s' =>
        { s' with chain := some result.chain, current := some ch }
  else some { s with pc := .fault }

/-- `memcpy(outPayload, inPayload, bytes)`, within the two slots. -/
def copyPayload (cfg : Config) (s : Loop O α) (b : Block α) : Option (Loop O α) :=
  if (payloadBytes b).toNat ≤ payloadRoom cfg.inputRing ∧
      (payloadBytes b).toNat ≤ payloadRoom cfg.outputRing then
    (s.copy (fun b out => { out with
      payload := memcpy ((payloadBytes b).toNat / 4) out.payload b.payload }) .publishHead).map
        fun s' => { s' with current := s.chain }
  else some { s with pc := .fault }

/-- The dispatch on the payload. -/
def dispatch (cfg : Config) (proc : SlotFormat → Processor O α) (s : Loop O α) : Option (Loop O α) :=
  match s.held, s.chain with
  | none, _ => none
  | some b, some ch => if b.channels = 1 then s.runChain cfg proc ch b else s.copyPayload cfg b
  | some b, none => s.copyPayload cfg b

/-- One step of `RunPassthrough`. -/
def audioStep (cfg : Config) (proc : SlotFormat → Processor O α) (s : Loop O α) (woken : Bool) :
    Option (Loop O α) :=
  match s.pc with
  | .checkStop => some { s with pc := if s.stopFlag then .returned else .checkControl }
  | .checkControl => some { s with pc := if s.controlStopFlag then .returned else .wait }
  | .wait =>
    if !woken then some { s with pc := .checkStop }
    else if s.inputPosts = 0 then none
    else some { s with inputPosts := s.inputPosts - 1, pc := .readTail }
  | .readTail => s.input.readTail.map fun input => { s with input, pc := .readHead }
  | .readHead => (s.input.readHead cfg.inputRing).map fun input =>
      { s with input, pc := if input.consumer = .idle then .checkStop else .acquireHead }
  | .acquireHead => s.output.acquireHead.map fun output => { s with output, pc := .acquireTail }
  | .acquireTail => (s.output.acquireTail cfg.outputRing).map fun output =>
      if output.producer = .idle then { s with
        output, verdicts := s.verdicts ++ [.dropped s.output.head s.output.tail], pc := .dropTail }
      else { s with output, pc := .copySeq }
  | .dropTail => s.input.releaseTail.map fun input => { s with input, pc := .dropStore }
  | .dropStore => s.input.releaseStore.map fun input => { s with input, pc := .dropCount }
  | .dropCount => some { s with dropped := s.dropped + 1, pc := .readTail }
  | .copySeq => s.copy (fun b out => { out with seq := b.seq }) .copyFrames
  | .copyFrames => s.copy (fun b out => { out with frames := b.frames }) .copyChannels
  | .copyChannels => s.copy (fun b out => { out with channels := b.channels }) .copySampleRate
  | .copySampleRate => s.copy (fun b out => { out with sampleRate := b.sampleRate }) .copyFlags
  | .copyFlags => s.copy (fun b out => { out with flags := b.flags }) .zeroReserved
  | .zeroReserved => s.copy (fun _ out => { out with reserved := List.replicate 40 0 }) .payload
  | .payload => s.dispatch cfg proc
  | .publishHead => s.output.publishHead.map fun output => { s with output, pc := .publishStore }
  | .publishStore => s.output.publishStore.map fun output => { s with
      output, verdicts := s.verdicts ++ [.relayed s.current], pc := .releaseTail }
  | .releaseTail => s.input.releaseTail.map fun input => { s with input, pc := .releaseStore }
  | .releaseStore => s.input.releaseStore.map fun input => { s with input, pc := .count }
  | .count => some { s with processed := s.processed + 1, pc := .signal }
  | .signal => some { s with outputPosts := s.outputPosts + 1, pc := .readTail }
  | .returned | .fault => none

def step (cfg : Config) (proc : SlotFormat → Processor O α) (s : Loop O α) :
    LoopAct O α → Option (Loop O α)
  | .audio woken => s.audioStep cfg proc woken
  | .produce a => (s.input.produce cfg.inputRing a).map fun input => { s with input }
  | .consume a => (s.output.consume cfg.outputRing a).map fun output => { s with output }
  | .post => some { s with inputPosts := s.inputPosts + 1 }
  | .control change => some { s with
      chain := s.chain.map fun ch => { change ch with maxBlockSize := ch.maxBlockSize } }
  | .stop => some { s with stopFlag := true }
  | .controlStop => some { s with controlStopFlag := true }

end Loop
end Plughost.Audio
