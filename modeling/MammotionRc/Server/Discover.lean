import MammotionRc.Machine.OrderedDict
import MammotionRc.Machine.PyText
import MammotionRc.Machine.Utf8

/-! # The server's side of the discovery

`discover_blocking` sends a probe and reads the replies for some time. A reply is a line of tokens, of which
those with an equals sign are the fields; a later field replaces an earlier one of the same name, and a later
reply an earlier one of the same proxy.
-/

namespace MammotionRc.Server

open Machine

def PROBE : List UInt8 := Utf8.encode "HC33-DISCOVER?1".toList
def REPLY_PREFIX : List UInt8 := Utf8.encode "HC33-PROXY".toList

/-- What a proxy told about itself, and its address. -/
abbrev ProxyReply := OrderedDict String String

/-- The names and values of the tokens that have both. -/
def tokenPairs (tokens : List (List Char)) : List (String × String) :=
  (tokens.filter ('=' ∈ ·)).map fun tok =>
    let (key, value) := PyText.splitOnce '=' tok
    (.ofList key, .ofList value)

/-- The fields of a text. -/
def replyFields (text : List Char) : ProxyReply := .ofPairs (tokenPairs ((PyText.split text).drop 1))

/-- The fields of a datagram; `none` if it is no reply. -/
def parseReply (data : List UInt8) : Option ProxyReply :=
  if !REPLY_PREFIX.isPrefixOf data then none else some (replyFields (Utf8.decodeReplace data))

/-- A reply that was encoded is read back. -/
theorem parseReply_encode {text : List Char} (marked : "HC33-PROXY".toList <+: text) :
    parseReply (Utf8.encode text) = some (replyFields text) := by
  have accepted : ¬ (!REPLY_PREFIX.isPrefixOf (Utf8.encode text)) = true := by
    rw [REPLY_PREFIX, List.isPrefixOf_iff_prefix.mpr (Utf8.prefix_encode marked)]
    decide
  rw [parseReply, if_neg accepted, Utf8.decodeReplace_encode]

/-- `recvfrom(512)`. -/
def receivedBytes (datagram : List UInt8) : List UInt8 := datagram.take 512

/-- One datagram, with the address it came from. -/
def receive (found : OrderedDict String ProxyReply) (packet : List UInt8 × String) : OrderedDict String ProxyReply :=
  let (datagram, ip) := packet
  match parseReply (receivedBytes datagram) with
  | none => found
  | some kv =>
    let kv := kv.set "ip" ip
    found.set ((kv.get? "chip_id").getD ip) kv

/-- `discover_blocking`, by the datagrams that arrive in its time. -/
def discoverBlocking (datagrams : List (List UInt8 × String)) : List ProxyReply :=
  (datagrams.foldl receive .empty).values

end MammotionRc.Server
