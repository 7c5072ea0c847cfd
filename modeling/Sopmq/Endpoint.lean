import Mathlib.Data.String.Basic

/-!
# Endpoints

`endpoint` is made from a URI, from a host and a port, or from an endpoint of the network
library. The URI is read by a scanner with three loops: the scheme up to the first colon, the
host up to the next colon or the end, and the port up to the end. The conversion of the port's
text, `boost::lexical_cast<unsigned short>`, is a parameter. A `std::string` has one character for
each byte and is compared character by character. Lower case is that of the classic locale, which
changes the letters of ASCII only.

The constructors other than the one from a URI leave the text of the endpoint empty, and it is
this text that endpoints are compared and printed by.
-/

namespace Sopmq

/-- `endpoint::endpoint_proto`. No constructor leaves an endpoint with the
unknown protocol. -/
inductive EndpointProto where
  | sopmqvUnknown
  | sopmqv1
deriving DecidableEq, Repr

/-- `uri_parse_error` and `invalid_protocol_error`, with their texts. These
are what the constructor from a URI may throw. -/
inductive EndpointError where
  | uriParseError (message : String)
  | invalidProtocolError (message : String)
deriving DecidableEq, Repr

/-- `endpoint`: the parts of the address, and the text it was given as,
which is empty for the other constructors. -/
structure Endpoint where
  hostname : String
  port : UInt16
  proto : EndpointProto
  stringUri : String
deriving DecidableEq, Repr

/-- `boost::asio::ip::tcp::endpoint`: the text of its address and its port.
The library itself is not modelled. -/
structure TcpEndpoint where
  address : String
  port : UInt16
deriving DecidableEq, Repr

namespace Endpoint

/-- `boost::algorithm::to_lower_copy`, in the classic locale: only the
letters of ASCII change. -/
def toLowerCopy (text : String) : String := String.ofList (text.toList.map Char.toLower)

/-- `endpoint::get_default_port_for_proto`, which throws for the unknown
protocol. -/
def getDefaultPortForProto : EndpointProto → Except EndpointError UInt16
  | .sopmqv1 => .ok 8481
  | .sopmqvUnknown => .error (.invalidProtocolError "port number for protocol is unknown")

/-- `endpoint::scheme_name_to_protocol`. -/
def schemeNameToProtocol (scheme : String) : Except EndpointError EndpointProto :=
  if toLowerCopy scheme = "sopmq1" then .ok .sopmqv1
  else .error (.invalidProtocolError (scheme ++ " is an unknown protocol"))

/-- The loop that reads everything until a colon or the end: what was read,
and what is left. The scheme and the host are both read by it. -/
def readUntilColon : List Char → List Char × List Char
  | [] => ([], [])
  | c :: iter =>
      if c ≠ ':' then (c :: (readUntilColon iter).1, (readUntilColon iter).2) else ([], c :: iter)

/-- `endpoint::parse_uri` after the slashes: the host up to a colon or the
end, and behind a colon the port. Whether the host is empty is checked only
where there is nothing at all. -/
def parseAuthority (lexicalCast : String → Option UInt16) (scheme : String) (iter : List Char) :
    Except EndpointError Endpoint :=
  if iter = [] then .error (.uriParseError "nothing found after scheme")
  else
    match readUntilColon iter with
    | (hostname, []) => do
        let proto ← schemeNameToProtocol scheme
        let port ← getDefaultPortForProto proto
        .ok ⟨String.ofList hostname, port, proto, ""⟩
    | (hostname, _ :: iter) =>
        if iter = [] then .error (.uriParseError "port not specified")
        else do
          let proto ← schemeNameToProtocol scheme
          match lexicalCast (String.ofList iter) with
          | some port => .ok ⟨String.ofList hostname, port, proto, ""⟩
          | none => .error (.uriParseError "port number specified was invalid")

/-- `endpoint::parse_uri`, on an endpoint without a text: the scheme, the
three separators one after the other, and the rest. -/
def parseUri (lexicalCast : String → Option UInt16) (uri : String) :
    Except EndpointError Endpoint :=
  if uri.toList = [] then .error (.uriParseError "uri was empty")
  else
    match readUntilColon uri.toList with
    | (_, []) => .error (.uriParseError "scheme could not be deduced")
    | (scheme, _ :: '/' :: '/' :: iter) => parseAuthority lexicalCast (String.ofList scheme) iter
    | (_, _ :: '/' :: _) => .error (.uriParseError "expecting a / after scheme:/")
    | (_, _ :: _) => .error (.uriParseError "expecting a / after scheme:")

/-- `endpoint(uri)`: the text is stored as it was given, when it could be
parsed. -/
def ofUri (lexicalCast : String → Option UInt16) (uri : String) : Except EndpointError Endpoint :=
  (parseUri lexicalCast uri).map fun parsed => { parsed with stringUri := uri }

/-- `endpoint(ep)`, for an endpoint of the network library. The text stays
empty. -/
def ofTcp (ep : TcpEndpoint) : Endpoint := ⟨ep.address, ep.port, .sopmqv1, ""⟩

/-- `endpoint(hostName, port)`. Here, too, the text stays empty. -/
def ofHost (hostName : String) (port : UInt16) : Endpoint := ⟨hostName, port, .sopmqv1, ""⟩

/-- `endpoint::str`: the stored text, and not one made from the parts. -/
def str (endpoint : Endpoint) : String := endpoint.stringUri

/-- `operator <`: the lexicographic order of the texts, by which the
containers sort and identify endpoints. -/
def less (lhs rhs : Endpoint) : Bool := lhs.str < rhs.str

/-- The scheme names the protocol, without regard to case. It has no colon,
so that the scanner reads all of it. -/
structure NamesProtocol (scheme : String) : Prop where
  single : ':' ∉ scheme.toList
  named : toLowerCopy scheme = "sopmq1"

/-- The endpoint that a URI stands for: a scheme, a host that is not empty,
and a port or none, in which case the default port is meant. -/
def Denotes (lexicalCast : String → Option UInt16) (uri : String) (endpoint : Endpoint) : Prop :=
  ∃ scheme host, NamesProtocol scheme ∧ host ≠ "" ∧ ':' ∉ host.toList ∧
    (uri = scheme ++ "://" ++ host ∧ endpoint = ⟨host, 8481, .sopmqv1, uri⟩ ∨
      ∃ port value, port ≠ "" ∧ lexicalCast port = some value ∧
        uri = scheme ++ "://" ++ host ++ ":" ++ port ∧ endpoint = ⟨host, value, .sopmqv1, uri⟩)

/-- The URI has a port and no host. The grammar does not allow this, and the
scanner does. -/
def Hostless (lexicalCast : String → Option UInt16) (uri : String) (endpoint : Endpoint) : Prop :=
  ∃ scheme port value, NamesProtocol scheme ∧ port ≠ "" ∧ lexicalCast port = some value ∧
    uri = scheme ++ "://" ++ ":" ++ port ∧ endpoint = ⟨"", value, .sopmqv1, uri⟩

/-- The loop reads a text without a colon to its end, and leaves nothing. -/
theorem readUntilColon_end (front : List Char) (single : ':' ∉ front) :
    readUntilColon front = (front, []) := by
  induction front with
  | nil => rfl
  | cons c front inductionHypothesis =>
    have other : c ≠ ':' := (List.ne_of_not_mem_cons single).symm
    rw [readUntilColon, if_pos other, inductionHypothesis (List.not_mem_of_not_mem_cons single)]

/-- The loop stops at the first colon, which it leaves in the rest. -/
theorem readUntilColon_colon (front iter : List Char) (single : ':' ∉ front) :
    readUntilColon (front ++ ':' :: iter) = (front, ':' :: iter) := by
  induction front with
  | nil => rfl
  | cons c front inductionHypothesis =>
    have other : c ≠ ':' := (List.ne_of_not_mem_cons single).symm
    rw [List.cons_append, readUntilColon, if_pos other,
      inductionHypothesis (List.not_mem_of_not_mem_cons single)]

/-- What the loop can do with a text: either it has no colon, or it is split
at its first one. Every case of the scanner begins with this. -/
theorem readUntilColon_cases (text : List Char) :
    ':' ∉ text ∧ readUntilColon text = (text, []) ∨
      ∃ front iter, ':' ∉ front ∧ text = front ++ ':' :: iter ∧
        readUntilColon text = (front, ':' :: iter) := by
  by_cases found : ':' ∈ text
  · obtain ⟨front, iter, split, single⟩ := List.eq_append_cons_of_mem found
    exact .inr ⟨front, iter, single, split, split ▸ readUntilColon_colon front iter single⟩
  · exact .inl ⟨found, readUntilColon_end text found⟩

/-- A scheme of the one known name, in any spelling of its letters, gives
the protocol. -/
theorem schemeNameToProtocol_of_named (scheme : String) (named : toLowerCopy scheme = "sopmq1") :
    schemeNameToProtocol scheme = .ok .sopmqv1 := if_pos named

/-- Every other scheme raises, with its own spelling in the text of the
error. -/
theorem schemeNameToProtocol_of_other (scheme : String) (other : toLowerCopy scheme ≠ "sopmq1") :
    schemeNameToProtocol scheme =
      .error (.invalidProtocolError (scheme ++ " is an unknown protocol")) := if_neg other

/-- A text without a colon is a host, and the default port is taken. -/
theorem parseAuthority_host (lexicalCast : String → Option UInt16) (scheme : String)
    (iter : List Char) (named : toLowerCopy scheme = "sopmq1") (nonempty : iter ≠ [])
    (single : ':' ∉ iter) :
    parseAuthority lexicalCast scheme iter = .ok ⟨String.ofList iter, 8481, .sopmqv1, ""⟩ := by
  rw [parseAuthority, if_neg nonempty, readUntilColon_end iter single,
    schemeNameToProtocol_of_named scheme named]
  rfl

/-- A host, a colon and the rest: the rest is the port, colons in it
included, which the conversion then has to judge. -/
theorem parseAuthority_port (lexicalCast : String → Option UInt16) (scheme : String)
    (host port : List Char) (named : toLowerCopy scheme = "sopmq1") (nonempty : port ≠ [])
    (single : ':' ∉ host) :
    parseAuthority lexicalCast scheme (host ++ ':' :: port) =
      match lexicalCast (String.ofList port) with
      | some value => .ok ⟨String.ofList host, value, .sopmqv1, ""⟩
      | none => .error (.uriParseError "port number specified was invalid") := by
  have somewhere : host ++ ':' :: port ≠ [] := by simp
  rw [parseAuthority, if_neg somewhere, readUntilColon_colon host port single]
  simp only [if_neg nonempty, schemeNameToProtocol_of_named scheme named]
  rfl

/-- Nothing is accepted under another scheme, whatever follows it. -/
theorem parseAuthority_other (lexicalCast : String → Option UInt16) (scheme : String)
    (iter : List Char) (parsed : Endpoint) (other : toLowerCopy scheme ≠ "sopmq1") :
    parseAuthority lexicalCast scheme iter ≠ .ok parsed := by
  intro accepted
  rw [parseAuthority] at accepted
  simp only [schemeNameToProtocol_of_other scheme other] at accepted
  split at accepted
  · cases accepted
  · split at accepted
    · cases accepted
    · split at accepted <;> cases accepted

/-- What is accepted after the slashes: a host alone, or a host, which may
be empty here, a colon and a port. -/
theorem parseAuthority_ok_iff (lexicalCast : String → Option UInt16) (scheme : String)
    (iter : List Char) (parsed : Endpoint) :
    parseAuthority lexicalCast scheme iter = .ok parsed ↔
      toLowerCopy scheme = "sopmq1" ∧
        (iter ≠ [] ∧ ':' ∉ iter ∧ parsed = ⟨String.ofList iter, 8481, .sopmqv1, ""⟩ ∨
          ∃ host port value, ':' ∉ host ∧ port ≠ [] ∧ iter = host ++ ':' :: port ∧
            lexicalCast (String.ofList port) = some value ∧
            parsed = ⟨String.ofList host, value, .sopmqv1, ""⟩) := by
  constructor
  · intro accepted
    have named : toLowerCopy scheme = "sopmq1" := by
      by_contra other
      exact parseAuthority_other lexicalCast scheme iter parsed other accepted
    refine ⟨named, ?_⟩
    by_cases nonempty : iter = []
    · rw [parseAuthority, if_pos nonempty] at accepted
      cases accepted
    rcases readUntilColon_cases iter with ⟨single, -⟩ | ⟨host, port, single, rfl, read⟩
    · rw [parseAuthority_host lexicalCast scheme iter named nonempty single] at accepted
      exact .inl ⟨nonempty, single, (Except.ok.inj accepted).symm⟩
    · by_cases given : port = []
      · rw [parseAuthority, if_neg nonempty, read] at accepted
        simp only [if_pos given] at accepted
        cases accepted
      rw [parseAuthority_port lexicalCast scheme host port named given single] at accepted
      cases cast : lexicalCast (String.ofList port) with
      | none =>
        rw [cast] at accepted
        cases accepted
      | some value =>
        rw [cast] at accepted
        exact .inr ⟨host, port, value, single, given, rfl, cast, (Except.ok.inj accepted).symm⟩
  · rintro ⟨named, ⟨nonempty, single, rfl⟩ | ⟨host, port, value, single, given, rfl, cast, rfl⟩⟩
    · exact parseAuthority_host lexicalCast scheme iter named nonempty single
    · rw [parseAuthority_port lexicalCast scheme host port named given single, cast]

/-- What is accepted: a scheme without a colon, the three separators, and
what is accepted after them. -/
theorem parseUri_ok_iff (lexicalCast : String → Option UInt16) (uri : String)
    (parsed : Endpoint) :
    parseUri lexicalCast uri = .ok parsed ↔
      ∃ scheme iter, ':' ∉ scheme ∧ uri.toList = scheme ++ ':' :: '/' :: '/' :: iter ∧
        parseAuthority lexicalCast (String.ofList scheme) iter = .ok parsed := by
  constructor
  · intro accepted
    rw [parseUri] at accepted
    split at accepted
    · cases accepted
    · rcases readUntilColon_cases uri.toList with ⟨-, read⟩ | ⟨scheme, rest, single, split, read⟩
      · rw [read] at accepted
        cases accepted
      · rw [read] at accepted
        split at accepted
        · cases accepted
        · next matched =>
          cases matched
          exact ⟨scheme, _, single, split, accepted⟩
        · cases accepted
        · cases accepted
  · rintro ⟨scheme, iter, single, split, accepted⟩
    have somewhere : uri.toList ≠ [] := by simp [split]
    rw [parseUri, if_neg somewhere, split,
      readUntilColon_colon scheme ('/' :: '/' :: iter) single]
    exact accepted

/-- The constructor keeps the fields of the parsed endpoint and the text it
was given, and fails where the parser does. -/
theorem ofUri_eq_ok_iff (lexicalCast : String → Option UInt16) (uri : String)
    (endpoint : Endpoint) :
    ofUri lexicalCast uri = .ok endpoint ↔
      ∃ parsed, parseUri lexicalCast uri = .ok parsed ∧
        endpoint = { parsed with stringUri := uri } := by
  rw [ofUri]
  cases parseUri lexicalCast uri with
  | error e => simp [Except.map]
  | ok parsed => simp [Except.map, eq_comm]

/-- What the constructor accepts, spelled out on the text: a host that may
be empty is told from one that may not only where no port follows. -/
theorem ofUri_spelled_iff (lexicalCast : String → Option UInt16) (uri : String)
    (endpoint : Endpoint) :
    ofUri lexicalCast uri = .ok endpoint ↔
      ∃ scheme host, NamesProtocol scheme ∧ ':' ∉ host.toList ∧
        (host ≠ "" ∧ uri = scheme ++ "://" ++ host ∧ endpoint = ⟨host, 8481, .sopmqv1, uri⟩ ∨
          ∃ port value, port ≠ "" ∧ lexicalCast port = some value ∧
            uri = scheme ++ "://" ++ host ++ ":" ++ port ∧
            endpoint = ⟨host, value, .sopmqv1, uri⟩) := by
  rw [ofUri_eq_ok_iff]
  constructor
  · rintro ⟨parsed, accepted, rfl⟩
    obtain ⟨scheme, iter, single, split, accepted⟩ :=
      (parseUri_ok_iff lexicalCast uri parsed).mp accepted
    obtain ⟨named, ⟨nonempty, free, rfl⟩ | ⟨host, port, value, free, given, rfl, cast, rfl⟩⟩ :=
      (parseAuthority_ok_iff lexicalCast _ iter parsed).mp accepted
    · refine ⟨String.ofList scheme, String.ofList iter, ⟨by simpa using single, named⟩,
        by simpa using free, .inl ⟨by simpa using nonempty, ?_, rfl⟩⟩
      exact String.toList_inj.mp (by simp [split])
    · refine ⟨String.ofList scheme, String.ofList host, ⟨by simpa using single, named⟩,
        by simpa using free, .inr ⟨String.ofList port, value, by simpa using given, cast, ?_, rfl⟩⟩
      exact String.toList_inj.mp (by simp [split])
  · rintro ⟨scheme, host, names, free, accepted⟩
    have named : toLowerCopy (String.ofList scheme.toList) = "sopmq1" := by simpa using names.named
    rcases accepted with ⟨nonempty, spelled, rfl⟩ | ⟨port, value, given, cast, spelled, rfl⟩
    · refine ⟨⟨host, 8481, .sopmqv1, ""⟩, ?_, rfl⟩
      refine (parseUri_ok_iff lexicalCast uri _).mpr
        ⟨scheme.toList, host.toList, names.single, by simp [spelled], ?_⟩
      refine (parseAuthority_ok_iff lexicalCast _ _ _).mpr ⟨named, .inl ⟨?_, free, by simp⟩⟩
      simpa using nonempty
    · refine ⟨⟨host, value, .sopmqv1, ""⟩, ?_, rfl⟩
      refine (parseUri_ok_iff lexicalCast uri _).mpr
        ⟨scheme.toList, host.toList ++ ':' :: port.toList, names.single, by simp [spelled], ?_⟩
      refine (parseAuthority_ok_iff lexicalCast _ _ _).mpr
        ⟨named, .inr ⟨host.toList, port.toList, value, free, ?_, rfl, ?_, by simp⟩⟩
      · simpa using given
      · simpa using cast

/-- What a text of the grammar denotes has a host name. -/
theorem hostname_of_denotes (lexicalCast : String → Option UInt16) (uri : String)
    (endpoint : Endpoint) (denotes : Denotes lexicalCast uri endpoint) :
    endpoint.hostname ≠ "" := by
  obtain ⟨scheme, host, -, nonempty, -, ⟨-, rfl⟩ | ⟨port, value, -, -, -, rfl⟩⟩ := denotes
  · exact nonempty
  · exact nonempty

/-- What a text without a host is read as has none. So no text is both, and
the two readings are told apart by the result. -/
theorem hostname_of_hostless (lexicalCast : String → Option UInt16) (uri : String)
    (endpoint : Endpoint) (hostless : Hostless lexicalCast uri endpoint) :
    endpoint.hostname = "" := by
  obtain ⟨scheme, port, value, -, -, -, -, rfl⟩ := hostless
  rfl

/-- The constructor accepts what denotes an endpoint, and besides it the
texts with a port and no host. -/
theorem ofUri_ok_iff (lexicalCast : String → Option UInt16) (uri : String)
    (endpoint : Endpoint) :
    ofUri lexicalCast uri = .ok endpoint ↔
      Denotes lexicalCast uri endpoint ∨ Hostless lexicalCast uri endpoint := by
  rw [ofUri_spelled_iff]
  constructor
  · rintro ⟨scheme, host, names, free, ⟨nonempty, alone⟩ | ⟨port, value, written⟩⟩
    · exact .inl ⟨scheme, host, names, nonempty, free, .inl alone⟩
    · by_cases nonempty : host = ""
      · subst nonempty
        obtain ⟨given, cast, spelled, same⟩ := written
        exact .inr ⟨scheme, port, value, names, given, cast, by simpa using spelled, same⟩
      · exact .inl ⟨scheme, host, names, nonempty, free, .inr ⟨port, value, written⟩⟩
  · rintro (⟨scheme, host, names, nonempty, free, alone | written⟩ |
      ⟨scheme, port, value, names, given, cast, spelled, same⟩)
    · exact ⟨scheme, host, names, free, .inl ⟨nonempty, alone⟩⟩
    · exact ⟨scheme, host, names, free, .inr written⟩
    · refine ⟨scheme, "", names, by simp, .inr ⟨port, value, given, cast, ?_, same⟩⟩
      simpa using spelled

/-- The scanner accepts exactly the grammar, with the fields the grammar
gives, on every text that is not a scheme and a port without a host. Those
texts are the only others it accepts.

Proof: an endpoint that a text denotes has a host, and the one made from a
text without a host has none, so that such a text is accepted and denotes
nothing. -/
theorem uri_grammar_iff (lexicalCast : String → Option UInt16) (uri : String) :
    (∀ endpoint, ofUri lexicalCast uri = .ok endpoint ↔
      Denotes lexicalCast uri endpoint ∨ Hostless lexicalCast uri endpoint) ∧
    ((∀ endpoint, ofUri lexicalCast uri = .ok endpoint ↔ Denotes lexicalCast uri endpoint) ↔
      ¬∃ endpoint, Hostless lexicalCast uri endpoint) := by
  refine ⟨ofUri_ok_iff lexicalCast uri, ?_, ?_⟩
  · rintro exactly ⟨endpoint, hostless⟩
    have accepted := (ofUri_ok_iff lexicalCast uri endpoint).mpr (.inr hostless)
    have denotes := (exactly endpoint).mp accepted
    exact hostname_of_denotes lexicalCast uri endpoint denotes
      (hostname_of_hostless lexicalCast uri endpoint hostless)
  · intro none endpoint
    rw [ofUri_ok_iff]
    exact or_iff_left fun hostless => none ⟨endpoint, hostless⟩

/-- The value of a text of decimal digits that fits a port, as an instance
of the conversion for texts on fixed inputs. -/
def decimalPort (text : String) : Option UInt16 :=
  let value := text.toList.foldl (fun value digit => 10 * value + (digit.toNat - '0'.toNat)) 0
  if text ≠ "" ∧ text.toList.all Char.isDigit ∧ value < 65536 then some (UInt16.ofNat value)
  else none

/-- A port without a host is accepted, as an endpoint with an empty host
name. The grammar gives this text no meaning. -/
theorem uri_without_host_accepted :
    ofUri decimalPort "sopmq1://:80" = .ok ⟨"", 80, .sopmqv1, "sopmq1://:80"⟩ ∧
      ¬∃ endpoint, Denotes decimalPort "sopmq1://:80" endpoint := by
  have accepted : ofUri decimalPort "sopmq1://:80" = .ok ⟨"", 80, .sopmqv1, "sopmq1://:80"⟩ := by
    decide
  refine ⟨accepted, ?_⟩
  rintro ⟨endpoint, denotes⟩
  have made := (ofUri_ok_iff decimalPort "sopmq1://:80" endpoint).mpr (.inl denotes)
  have same := Except.ok.inj (accepted.symm.trans made)
  exact hostname_of_denotes decimalPort "sopmq1://:80" endpoint denotes (same ▸ rfl)

/-- What an endpoint is made from: a URI, an endpoint of the network
library, or a host and a port. -/
inductive Source where
  | uri (uri : String)
  | tcp (ep : TcpEndpoint)
  | host (hostName : String) (port : UInt16)

/-- The constructor for each kind of source. Only the one from a URI can
fail. -/
def make (lexicalCast : String → Option UInt16) : Source → Except EndpointError Endpoint
  | .uri uri => ofUri lexicalCast uri
  | .tcp ep => .ok (ofTcp ep)
  | .host hostName port => .ok (ofHost hostName port)

/-- Two endpoints have the same protocol, host name and port: they stand for
the same place. -/
def SameFields (first second : Endpoint) : Prop :=
  first.proto = second.proto ∧ first.hostname = second.hostname ∧ first.port = second.port

/-- The order tells two endpoints apart exactly when their fields do, and
the text of the first one makes an endpoint with its fields. -/
structure Identity (lexicalCast : String → Option UInt16) (first second : Endpoint) : Prop where
  order : less first second = false ∧ less second first = false ↔ SameFields first second
  reread : ∃ again, ofUri lexicalCast first.str = .ok again ∧ SameFields again first

/-- Neither of two endpoints is less than the other exactly when they have
the same text, since texts are ordered totally. -/
theorem less_neither_iff (first second : Endpoint) :
    less first second = false ∧ less second first = false ↔ first.str = second.str := by
  simp only [less, decide_eq_false_iff_not, not_lt]
  constructor
  · rintro ⟨above, below⟩
    exact le_antisymm below above
  · intro same
    exact ⟨same.ge, same.le⟩

/-- The text of an endpoint that was made from a URI is this URI, as it was
spelled. -/
theorem str_of_uri (lexicalCast : String → Option UInt16) (uri : String) (endpoint : Endpoint)
    (made : ofUri lexicalCast uri = .ok endpoint) : endpoint.str = uri := by
  obtain ⟨parsed, -, rfl⟩ := (ofUri_eq_ok_iff lexicalCast uri endpoint).mp made
  rfl

/-- The empty text makes no endpoint. So an endpoint without a text cannot
be made again from its text. -/
theorem ofUri_empty (lexicalCast : String → Option UInt16) (endpoint : Endpoint) :
    ofUri lexicalCast "" ≠ .ok endpoint := by
  intro made
  cases made

/-- An endpoint that is not made from a URI has an empty text, whatever its
host and port. -/
theorem str_of_not_uri (lexicalCast : String → Option UInt16) (source : Source)
    (endpoint : Endpoint) (made : make lexicalCast source = .ok endpoint)
    (other : ∀ uri, source ≠ .uri uri) : endpoint.str = "" := by
  cases source with
  | uri uri => exact absurd rfl (other uri)
  | tcp ep =>
    cases made
    rfl
  | host hostName port =>
    cases made
    rfl

/-- An endpoint made from a URI has the text of another one exactly when
both are made from the same URI. -/
theorem str_eq_iff_of_uri (lexicalCast : String → Option UInt16) (uri : String) (source : Source)
    (first second : Endpoint) (made : ofUri lexicalCast uri = .ok first)
    (madeOther : make lexicalCast source = .ok second) :
    first.str = second.str ↔ Source.uri uri = source := by
  rw [str_of_uri lexicalCast uri first made]
  by_cases fromUri : ∃ other, source = .uri other
  · obtain ⟨other, rfl⟩ := fromUri
    rw [str_of_uri lexicalCast other second madeOther, Source.uri.injEq]
  · have otherwise : ∀ other, source ≠ .uri other := fun other same => fromUri ⟨other, same⟩
    rw [str_of_not_uri lexicalCast source second madeOther otherwise]
    refine iff_of_false (fun empty => ?_) (otherwise uri).symm
    exact ofUri_empty lexicalCast first (empty ▸ made)

/-- The identity of two endpoints is that of their fields exactly when the
first is made from a URI and no other source of the second has the same
fields.

Proof: endpoints are ordered by their texts. The text of an endpoint made
from a URI is that URI, which is not empty, and the text of any other is
empty, from which no endpoint is made. -/
theorem identity_iff (lexicalCast : String → Option UInt16) (source other : Source)
    (first second : Endpoint) (made : make lexicalCast source = .ok first)
    (madeOther : make lexicalCast other = .ok second) :
    Identity lexicalCast first second ↔
      (∃ uri, source = .uri uri) ∧ (SameFields first second → source = other) := by
  by_cases fromUri : ∃ uri, source = .uri uri
  · obtain ⟨uri, rfl⟩ := fromUri
    have texts := str_eq_iff_of_uri lexicalCast uri other first second made madeOther
    constructor
    · intro identity
      refine ⟨⟨uri, rfl⟩, fun same => texts.mp ?_⟩
      exact (less_neither_iff first second).mp (identity.order.mpr same)
    · rintro ⟨-, only⟩
      refine ⟨(less_neither_iff first second).trans ⟨fun same => ?_, fun same => ?_⟩, ?_⟩
      · obtain rfl := texts.mp same
        obtain rfl : first = second := Except.ok.inj (made.symm.trans madeOther)
        exact ⟨rfl, rfl, rfl⟩
      · exact texts.mpr (only same)
      · rw [str_of_uri lexicalCast uri first made]
        exact ⟨first, made, rfl, rfl, rfl⟩
  · refine iff_of_false (fun identity => ?_) fun claimed => fromUri claimed.1
    obtain ⟨again, reread, -⟩ := identity.reread
    have empty := str_of_not_uri lexicalCast source first made fun uri same => fromUri ⟨uri, same⟩
    exact ofUri_empty lexicalCast again (empty ▸ reread)

/-- Two URIs with different hosts keep their identity: their texts differ as
their fields do, and each can be read again. -/
theorem identity_distinct_hosts :
    ∃ first second, make decimalPort (.uri "sopmq1://a:80") = .ok first ∧
      make decimalPort (.uri "sopmq1://b") = .ok second ∧ Identity decimalPort first second := by
  refine ⟨⟨"a", 80, .sopmqv1, "sopmq1://a:80"⟩, ⟨"b", 8481, .sopmqv1, "sopmq1://b"⟩,
    by decide, by decide, ?_⟩
  refine (identity_iff decimalPort (.uri "sopmq1://a:80") (.uri "sopmq1://b") _ _
    (by decide) (by decide)).mpr ⟨⟨_, rfl⟩, fun same => ?_⟩
  exact absurd same.2.1 (by decide)

/-- Two hosts are not told apart and their text makes no endpoint; one
endpoint spelled in two ways is told apart from itself. -/
theorem identity_lost :
    (¬SameFields (ofHost "a" 80) (ofHost "b" 80) ∧
      less (ofHost "a" 80) (ofHost "b" 80) = false ∧
      less (ofHost "b" 80) (ofHost "a" 80) = false ∧
      ofUri decimalPort (ofHost "a" 80).str = .error (.uriParseError "uri was empty")) ∧
    ∃ first second, make decimalPort (.uri "SOPMQ1://a") = .ok first ∧
      make decimalPort (.uri "sopmq1://a:8481") = .ok second ∧ SameFields first second ∧
      less first second = true := by
  refine ⟨⟨fun same => absurd same.2.1 (by decide), by decide, by decide, rfl⟩, ?_⟩
  refine ⟨⟨"a", 8481, .sopmqv1, "SOPMQ1://a"⟩, ⟨"a", 8481, .sopmqv1, "sopmq1://a:8481"⟩,
    by decide, by decide, ⟨rfl, rfl, rfl⟩, by decide⟩

end Endpoint

end Sopmq
