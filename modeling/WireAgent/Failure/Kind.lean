/-!
# Kinds of failures

A failure of an exchange belongs to the family of request failures, which holds the connection
failures and the timeouts. Others come from the pool of connections, from looking a name up, from
the operating system, or from anywhere else.
-/

namespace WireAgent.Failure

/-- What sort of failure it is. -/
inductive Kind where
  | request
  | malformedJson
  | undecodableJson
  | statusRefused
  | connection
  | proxy
  | tls
  | timeout
  | connectTimeout
  | readTimeout
  | urlMissing
  | tooManyRedirects
  | schemeMissing
  | schemeUnknown
  | badUrl
  | badHeader
  | badProxyUrl
  | badChunk
  | badContent
  | streamConsumed
  | retriesFailed
  | bodyNotRewindable
  | newConnection
  | nameResolution
  | retriesExceeded
  | lookup
  | system
  | runtime
  | value
  | key
  | general
  deriving DecidableEq, Repr

namespace Kind

/-- Every kind with its label. -/
def labels : List (Kind × String) :=
  [(.request, "RequestException"), (.malformedJson, "InvalidJSONError"),
   (.undecodableJson, "JSONDecodeError"), (.statusRefused, "HTTPError"),
   (.connection, "ConnectionError"), (.proxy, "ProxyError"), (.tls, "SSLError"),
   (.timeout, "Timeout"), (.connectTimeout, "ConnectTimeout"), (.readTimeout, "ReadTimeout"),
   (.urlMissing, "URLRequired"), (.tooManyRedirects, "TooManyRedirects"),
   (.schemeMissing, "MissingSchema"), (.schemeUnknown, "InvalidSchema"), (.badUrl, "InvalidURL"),
   (.badHeader, "InvalidHeader"), (.badProxyUrl, "InvalidProxyURL"),
   (.badChunk, "ChunkedEncodingError"), (.badContent, "ContentDecodingError"),
   (.streamConsumed, "StreamConsumedError"), (.retriesFailed, "RetryError"),
   (.bodyNotRewindable, "UnrewindableBodyError"), (.newConnection, "NewConnectionError"),
   (.nameResolution, "NameResolutionError"), (.retriesExceeded, "MaxRetryError"),
   (.lookup, "gaierror"), (.system, "OSError"), (.runtime, "RuntimeError"),
   (.value, "ValueError"), (.key, "KeyError"), (.general, "Exception")]

/-- The label of a kind. -/
def label (kind : Kind) : String :=
  ((labels.find? fun entry => entry.1 == kind).map Prod.snd).getD ""

/-- The kind of a label. -/
def ofLabel? (label : String) : Option Kind :=
  (labels.find? fun entry => entry.2 == label).map Prod.fst

/-- Does it belong to the family of request failures? -/
def isRequest : Kind → Bool
  | .newConnection | .nameResolution | .retriesExceeded | .lookup | .system | .runtime | .value
  | .key | .general => false
  | _ => true

/-- Is it a connection failure? -/
def isConnection : Kind → Bool
  | .connection | .proxy | .tls | .connectTimeout => true
  | _ => false

/-- Is it a timeout? -/
def isTimeout : Kind → Bool
  | .timeout | .connectTimeout | .readTimeout => true
  | _ => false

/-- Did a name fail to be looked up? -/
def isNameResolution : Kind → Bool
  | .nameResolution | .lookup => true
  | _ => false

/-- Is it in the family of failures of the operating system, which carry an error number? -/
def isSystem : Kind → Bool
  | .lookup | .system => true
  | kind => kind.isRequest

end Kind

/-- The label of a failure of the operating system by its error number. -/
def systemLabel (errno : Int) : String :=
  match errno with
  | 1 | 13 => "PermissionError"
  | 2 => "FileNotFoundError"
  | 3 => "ProcessLookupError"
  | 4 => "InterruptedError"
  | 10 => "ChildProcessError"
  | 11 | 114 | 115 => "BlockingIOError"
  | 17 => "FileExistsError"
  | 20 => "NotADirectoryError"
  | 21 => "IsADirectoryError"
  | 32 | 108 => "BrokenPipeError"
  | 103 => "ConnectionAbortedError"
  | 104 => "ConnectionResetError"
  | 110 => "TimeoutError"
  | 111 => "ConnectionRefusedError"
  | _ => "OSError"

end WireAgent.Failure
