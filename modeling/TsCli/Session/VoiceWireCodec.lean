import TsCli.Packet.Format

/-!
# The voice wire codec

The payload of a voice packet is a short header and an encoded frame. Codecs, whisper types and
whisper targets are bytes here: the encoders check their range.
-/

namespace TsCli

/-- `VoiceCodec`. -/
abbrev VoiceCodec := UInt8

/-- `VoiceCodec::OpusMusic`, the last codec. -/
def VoiceCodec.opusMusic : VoiceCodec := 5

/-- `GroupWhisperType`. -/
abbrev GroupWhisperType := UInt8

/-- `GroupWhisperType::AllClients`, the last type. -/
def GroupWhisperType.allClients : GroupWhisperType := 3

/-- `GroupWhisperTarget`. -/
abbrev GroupWhisperTarget := UInt8

/-- `GroupWhisperTarget::Subchannels`, the last target. -/
def GroupWhisperTarget.subchannels : GroupWhisperTarget := 6

/-- `VoiceFrame`. -/
structure VoiceFrame where
  voiceId : UInt16 := 0
  clientId : UInt16 := 0
  codec : VoiceCodec := 4
  data : Bytes := []
  talkStart : Bool := false
  talkEnd : Bool := false
  whisper : Bool := false
  deriving DecidableEq, Repr

namespace VoiceWireCodec

open PacketLimits BinaryWriter

/-- `ValidateCodec`. -/
def validateCodec (codec : VoiceCodec) : Except Failure Unit :=
  throwIf (VoiceCodec.opusMusic < codec) "Unsupported TeamSpeak voice codec"

/-- `ValidatePayloadSize`. -/
def validatePayloadSize (metadataSize dataSize : ℕ) (message : String) : Except Failure Unit :=
  throwIf (maxClientPayload < metadataSize ∨ maxClientPayload - metadataSize < dataSize) message

/-- `VoiceWireCodec::EncodeClient`. -/
def encodeClient (voiceId : UInt16) (codec : VoiceCodec) (data : Bytes) : Except Failure Bytes := do
  validateCodec codec
  validatePayloadSize 3 data.length "Encoded voice frame is too large for a TeamSpeak datagram"
  return writeU16 voiceId ++ [codec] ++ data

/-- `VoiceWireCodec::EncodeClientWhisper`. -/
def encodeClientWhisper (voiceId : UInt16) (codec : VoiceCodec) (channelIds : List UInt64)
    (clientIds : List UInt16) (data : Bytes) : Except Failure Bytes := do
  validateCodec codec
  throwIf (255 < channelIds.length) "Too many TeamSpeak VoiceWhisper channel targets"
  throwIf (255 < clientIds.length) "Too many TeamSpeak VoiceWhisper client targets"
  validatePayloadSize (5 + channelIds.length * 8 + clientIds.length * 2) data.length
    "Encoded VoiceWhisper frame is too large for a TeamSpeak datagram"
  return writeU16 voiceId ++
    [codec, UInt8.ofNat channelIds.length, UInt8.ofNat clientIds.length] ++
    channelIds.flatMap writeU64 ++ clientIds.flatMap writeU16 ++ data

/-- `VoiceWireCodec::EncodeClientGroupWhisper`. -/
def encodeClientGroupWhisper (voiceId : UInt16) (codec : VoiceCodec) (type : GroupWhisperType)
    (target : GroupWhisperTarget) (targetId : UInt64) (data : Bytes) : Except Failure Bytes := do
  validateCodec codec
  throwIf (GroupWhisperType.allClients < type) "Unsupported TeamSpeak group whisper type"
  throwIf (GroupWhisperTarget.subchannels < target) "Unsupported TeamSpeak group whisper target"
  validatePayloadSize 13 data.length
    "Encoded group VoiceWhisper frame is too large for a TeamSpeak datagram"
  return writeU16 voiceId ++ [codec, type, target] ++ writeU64 targetId ++ data

/-- The part of `DecodeServer` that reads the payload. -/
def readFrame (flags : PacketFlags) (whisper : Bool) : BinaryReader VoiceFrame := do
  let voiceId ← BinaryReader.readU16
  let clientId ← BinaryReader.readU16
  let codec ← BinaryReader.readU8
  if VoiceCodec.opusMusic < codec then
    throw (.runtimeError "Unsupported TeamSpeak voice codec")
  else
    let data ← BinaryReader.readBytes (← get).length
    return {
      voiceId, clientId, codec, data, whisper
      talkStart := hasFlag flags .compressed
      talkEnd := data = [] }

/-- `VoiceWireCodec::DecodeServer`. -/
def decodeServer (payload : Bytes) (flags : PacketFlags) (whisper : Bool) :
    Except Failure VoiceFrame :=
  if hasFlag flags .fragmented then
    .error (.runtimeError "Fragmented TeamSpeak Voice packets are not supported")
  else if payload.length < 5 then
    .error (.runtimeError "Server Voice payload is too small")
  else
    match readFrame flags whisper payload with
    | .ok frame _ => .ok frame
    | .error failure _ => .error failure

end VoiceWireCodec

end TsCli
