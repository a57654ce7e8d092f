import Metaflow.ProtocolLogs.DnsName
import Metaflow.ProtocolLogs.Head

/-!
# DNS messages

`DnsLog::parse` of `protocol_logs/dns.rs`. `none` is a panic or an endless name.
An error leaves the log as far as it has been filled in. The text of an address
is the library's, a parameter here.
-/

namespace Metaflow.ProtocolLogs

open Library
open Library.Bytes
open AgentCommon (IpProtocol PacketDirection)

/-- `decode_name`; what is decoded at all is decoded within as many rounds as
the payload has bytes. -/
def decodeName (payload : List UInt8) (gOffset : Nat) : Option (Except String (List UInt8 × Nat)) :=
  decodeNameWithin payload.length payload gOffset

structure DnsInfo where
  transId : Nat := 0
  queryType : UInt8 := 0
  domainType : Nat := 0
  queryName : List UInt8 := []
  answers : List UInt8 := []

structure DnsLog where
  info : DnsInfo := {}
  msgType : LogMessageType := .other
  status : L7ResponseStatus := .ok
  statusCode : UInt8 := 0

namespace DnsLog

/-- An answer of the decoders, and the log they leave. -/
abbrev Decoded (α : Type) := Except String α × DnsLog

/-- `DOMAIN_NAME_SPLIT` -/
def domainNameSplit : UInt8 := 0x3b

def resetLogs (self : DnsLog) : DnsLog :=
  { self with
    info :=
      { self.info with
        transId := 0
        queryType := 0
        queryName := []
        answers := [] } }

def setDomainType (self : DnsLog) (domainType : Nat) : DnsLog :=
  { self with info := { self.info with domainType := domainType } }

def pushAnswer (self : DnsLog) (text : List UInt8) : DnsLog :=
  { self with info := { self.info with answers := self.info.answers ++ text } }

def pushQueryName (self : DnsLog) (name : List UInt8) : DnsLog :=
  { self with
    info :=
      { self.info with
        queryName :=
          (if self.info.queryName = [] then []
            else self.info.queryName ++ [domainNameSplit]) ++ name } }

def setRequest (self : DnsLog) (domainType : Nat) : DnsLog :=
  { self.setDomainType domainType with msgType := .request }

/-- A question behind its name. The numbers are `QUESTION_CLASS_TYPE_SIZE` and
`DNS_REQUEST`. -/
def readQuestion (self : DnsLog) (payload name : List UInt8)
    (offset : Nat) : Option (Decoded Nat) := do
  let rest <- suffixFrom payload offset
  if rest.length < 4 then
    some (.error ("question length error: " ++ toString rest.length), self)
  else
    let domainType <- word payload offset 2
    let self := self.pushQueryName name
    some (.ok (offset + 4),
      if self.info.queryType = 0 then self.setRequest domainType else self)

def decodeQuestion (payload : List UInt8) (self : DnsLog)
    (gOffset : Nat) : Option (Decoded Nat) := do
  match <- decodeName payload gOffset with
  | .error message => some (.error message, self)
  | .ok (name, offset) => self.readQuestion payload name offset

/-- The answers are set off by a split character. The last byte is read as a
text, which it is not inside a character. -/
def splitAnswers (self : DnsLog) : Option DnsLog :=
  match self.info.answers.getLast? with
  | none => some self
  | some last =>
    if isContinuation last then none
    else if last = domainNameSplit then some self
    else some (self.pushAnswer [domainNameSplit])

def invalidLength (self : DnsLog) (dataLength : Nat) : Decoded Unit :=
  (.error ("domain type " ++ toString self.info.domainType ++
    " data length " ++ toString dataLength ++ " invalid"), self)

variable (addressText : List UInt8 -> List UInt8)

/-- `parse_ip_slice`, with the text of the address. -/
def parseIpSlice (data : List UInt8) : Option (List UInt8) :=
  if data.length = 4 ∨ data.length = 16 then some (addressText data) else none

def readAddress (self : DnsLog) (payload : List UInt8) (gOffset dataLength : Nat) :
    Option (Decoded Unit) := do
  let data <- range payload gOffset dataLength
  some (.ok (),
    match parseIpSlice addressText data with
    | some text => self.pushAnswer text
    | none => self)

def readName (self : DnsLog) (payload : List UInt8) (gOffset : Nat) : Option (Decoded Unit) := do
  match <- decodeName payload gOffset with
  | .error message => some (.error message, self)
  | .ok (name, _) => some (.ok (), self.pushAnswer name)

/-- The domain types that `decode_rdata` tells apart. -/
inductive DomainType where
  | address
  | name
  | wks
  | ptr
  | other

def DomainType.ofNat (domainType : Nat) : DomainType :=
  if domainType = 1 ∨ domainType = 28 then .address
  else if domainType = 2 ∨ domainType = 39 ∨ domainType = 6 then .name
  else if domainType = 11 then .wks
  else if domainType = 12 then .ptr
  else .other

/-- The `match` of `decode_rdata`. The numbers are `DNS_NAME_MAX_SIZE`,
`DNS_TYPE_WKS_LENGTH` and `DNS_TYPE_PTR_LENGTH`. -/
def readRdata (self : DnsLog) (payload : List UInt8) (gOffset dataLength : Nat) :
    Option (Decoded Unit) :=
  match DomainType.ofNat self.info.domainType with
  | .address =>
    if dataLength = 4 ∨ dataLength = 16 then
      self.readAddress addressText payload gOffset dataLength
    else some (self.invalidLength dataLength)
  | .name =>
    if 255 < dataLength then some (self.invalidLength dataLength)
    else self.readName payload gOffset
  | .wks =>
    if dataLength < 5 then some (self.invalidLength dataLength)
    else self.readAddress addressText payload gOffset dataLength
  | .ptr =>
    if dataLength ≠ 2 then some (self.invalidLength dataLength)
    else some (.ok (), self)
  | .other =>
    some (.error ("other domain type " ++ toString self.info.domainType ++
      " data length " ++ toString dataLength ++ " invalid"), self)

def decodeRdata (self : DnsLog) (payload : List UInt8) (gOffset dataLength : Nat) :
    Option (Decoded Unit) := do
  let self <- self.splitAnswers
  self.readRdata addressText payload gOffset dataLength

/-- A record behind its name and its fixed fields. -/
def readData (self : DnsLog) (payload : List UInt8) (gOffset dataLength : Nat) :
    Option (Decoded Nat) :=
  if dataLength = 0 then some (.ok (gOffset + dataLength), self)
  else do
    match <- self.decodeRdata addressText payload gOffset dataLength with
    | (.error message, self) => some (.error message, self)
    | (.ok (), self) => some (.ok (gOffset + dataLength), self)

/-- A record behind its name. The number is `RR_RDATA_OFFSET`. -/
def readRecord (self : DnsLog) (payload : List UInt8) (offset : Nat) : Option (Decoded Nat) :=
  if payload.length ≤ offset then
    some (.error ("payload length error: " ++ toString payload.length), self)
  else do
    let rest <- suffixFrom payload offset
    if rest.length < 10 then
      some (.error ("resource record length error: " ++ toString rest.length), self)
    else
      let domainType <- word payload offset 2
      let dataLength <- word payload (offset + 8) 2
      (self.setDomainType domainType).readData addressText payload (offset + 10) dataLength

def decodeResourceRecord (payload : List UInt8) (self : DnsLog) (gOffset : Nat) :
    Option (Decoded Nat) := do
  match <- decodeName payload gOffset with
  | .error message => some (.error message, self)
  | .ok (_, offset) => self.readRecord addressText payload offset

/-- A loop over questions or records that an error ends. -/
def repeatDecode (decode : DnsLog -> Nat -> Option (Decoded Nat)) :
    (count : Nat) -> DnsLog -> Nat -> Option (Decoded Nat)
  | 0, self, gOffset => some (.ok gOffset, self)
  | count + 1, self, gOffset => do
      match <- decode self gOffset with
      | (.error message, self) => some (.error message, self)
      | (.ok gOffset, self) => repeatDecode decode count self gOffset

variable (self : DnsLog) (payload : List UInt8) (counts : Counts)

def setStatus (statusCode : UInt8) : DnsLog :=
  { self with
    statusCode := statusCode
    status :=
      if statusCode = 0 then .ok
      else if statusCode = 1 ∨ statusCode = 3 then .clientError
      else .serverError }

def head : AppProtoHead where
  proto := .dns
  msgType := self.msgType
  status := self.status
  code := self.statusCode.toNat

/-- The counts of a header. -/
structure Counts where
  qdCount : Nat
  anCount : Nat
  nsCount : Nat

def setHeader (transId : Nat) (flags status : UInt8) : DnsLog :=
  ({ self with
      info :=
        { self.info with
          transId := transId
          queryType := flags &&& 0x80 } } : DnsLog).setStatus (status &&& 0xf)

def readHeader : Option (Counts × DnsLog) := do
  let transId <- word payload 0 2
  let flags <- byte payload 2
  let status <- byte payload 3
  let qdCount <- word payload 4 2
  let anCount <- word payload 6 2
  let nsCount <- word payload 8 2
  some (⟨qdCount, anCount, nsCount⟩, self.setHeader transId flags status)

def setQueryType (queryType : UInt8) : DnsLog :=
  { self with info := { self.info with queryType := queryType } }

def setResponse : DnsLog :=
  { self with msgType := .response }

/-- The records of a response: answers, then name servers. -/
def decodeRecords (gOffset : Nat) : Option (Decoded AppProtoHead) := do
  match <- repeatDecode (decodeResourceRecord addressText payload)
      counts.anCount (self.setQueryType 1) gOffset with
  | (.error message, self) => some (.error message, self)
  | (.ok gOffset, self) =>
    match <- repeatDecode (decodeResourceRecord addressText payload)
        counts.nsCount self gOffset with
    | (.error message, self) => some (.error message, self)
    | (.ok _, self) => some (.ok self.setResponse.head, self.setResponse)

/-- A message behind its header. The numbers are `DNS_HEADER_SIZE` and
`DNS_RESPONSE`. -/
def decodeBody : Option (Decoded AppProtoHead) := do
  match <- repeatDecode (decodeQuestion payload) counts.qdCount self 12 with
  | (.error message, self) => some (.error message, self)
  | (.ok gOffset, self) =>
    if self.info.queryType = 0x80 then
      self.decodeRecords addressText payload counts gOffset
    else some (.ok self.head, self)

def decodePayload : Option (Decoded AppProtoHead) :=
  if payload.length ≤ 12 then
    some (.error ("dns payload length too short:" ++ toString payload.length), self)
  else do
    let (counts, self) <- self.readHeader payload
    self.decodeBody addressText payload counts

def payloadLengthError (length : Nat) : Decoded AppProtoHead :=
  (.error ("dns payload length error:" ++ toString length), self)

/-- A payload over TCP, from `DNS_TCP_PAYLOAD_OFFSET` on. -/
def parseTcp : Option (Decoded AppProtoHead) :=
  if payload.length ≤ 2 then some (self.payloadLengthError payload.length)
  else do
    let size <- word payload 0 2
    let message <- suffixFrom payload 2
    if size < message.length then some (self.payloadLengthError size)
    else self.decodePayload addressText message

def parse (proto : IpProtocol) (_direction : PacketDirection) : Option (Decoded AppProtoHead) :=
  let self := self.resetLogs
  match proto with
  | .udp => self.decodePayload addressText payload
  | .tcp => self.parseTcp addressText payload
  | _ => some (self.payloadLengthError payload.length)

end DnsLog
end Metaflow.ProtocolLogs
