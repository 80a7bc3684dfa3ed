import ChannelWatch.Url.Fault

/-!
# Faults

Everything that can go wrong, each with what is known about it. `Fault.message` puts a fault in words, `Fault.code` names
its kind for machines and `Fault.status` is the HTTP status of an answer that reports it.
-/

namespace ChannelWatch

/-- The kinds of input and output errors. -/
inductive IoKind
  | notFound
  | notADirectory
  | isADirectory
  | permissionDenied
  | addressInUse
  | addressNotAvailable
  | storageFull
  | other
  deriving DecidableEq

/-- The name of the kind. -/
def IoKind.name : IoKind → String
  | notFound => "NotFound"
  | notADirectory => "NotADirectory"
  | isADirectory => "IsADirectory"
  | permissionDenied => "PermissionDenied"
  | addressInUse => "AddrInUse"
  | addressNotAvailable => "AddrNotAvailable"
  | storageFull => "StorageFull"
  | other => "Other"

/-- An input or output error with its own words. -/
structure IoFault where
  kind : IoKind
  text : String
  deriving DecidableEq

namespace IoFault

/-- Nothing has the name. -/
def notFound : IoFault :=
  ⟨.notFound, "No such file or directory (os error 2)"⟩

/-- Something on the path is no directory. -/
def notADirectory : IoFault :=
  ⟨.notADirectory, "Not a directory (os error 20)"⟩

/-- A directory has the name of a file. -/
def isADirectory : IoFault :=
  ⟨.isADirectory, "Is a directory (os error 21)"⟩

/-- The operation is not permitted to this process. -/
def permissionDenied : IoFault :=
  ⟨.permissionDenied, "Permission denied (os error 13)"⟩

/-- The sink takes no more bytes. -/
def storageFull : IoFault :=
  ⟨.storageFull, "no storage space"⟩

end IoFault

/-- Why a request got no answer. What else can go wrong on the network, such as a limit of time or of redirects, is told in the
words of the client. -/
inductive NetworkFault
  | badUrl (fault : UrlFault)
  | schemeNotAllowed (url : String)
  | notRequestable (url : String)
  | unreachable (url : String)
  | brokenOff (url : String)
  | other (text : String)
  deriving DecidableEq

namespace NetworkFault

/-- The fault in words. -/
def message : NetworkFault → String
  | badUrl fault => "builder error: " ++ fault.message
  | schemeNotAllowed url => "builder error for url (" ++ url ++ "): URL scheme is not allowed"
  | notRequestable url => "builder error for url (" ++ url ++ "): Parsed Url is not a valid Uri"
  | unreachable url => "error sending request for url (" ++ url ++ ")"
  | brokenOff url => "error decoding response body for url (" ++ url ++ ")"
  | other text => text

/-- The request was never sent, because it could not be built. -/
def isUnbuildable : NetworkFault → Bool
  | badUrl _ | schemeNotAllowed _ | notRequestable _ => true
  | unreachable _ | brokenOff _ | other _ => false

end NetworkFault

/-- A failure. `noContentBecause` is the lack of content together with the fault that caused it. -/
inductive Fault
  | config (message : String) (key : Option String)
  | network (fault : NetworkFault)
  | httpStatus (status : Nat) (url : String)
  | decode (text : String)
  | io (fault : IoFault)
  | emptyJob
  | taskFailed (text : String)
  | noContent
  | noContentBecause (cause : Fault)
  | partialContent (failed : Nat)
  deriving DecidableEq

namespace Fault

/-- The fault in words. -/
def message : Fault → String
  | config message _ => "configuration error: " ++ message
  | network fault => "network error: " ++ fault.message
  | httpStatus status url => "unexpected HTTP status " ++ Nat.repr status ++ " from " ++ url
  | decode text => "decode error: " ++ text
  | io fault => "I/O error: " ++ fault.text
  | emptyJob => "fetch job has no requests"
  | taskFailed text => "fetch task failed: " ++ text
  | noContent => "no content to show"
  | noContentBecause cause => "no content to show: " ++ cause.message
  | partialContent failed => "some content is missing: missing videos from " ++ Nat.repr failed ++ " sources"

/-- The name of the fault's kind. -/
def code : Fault → String
  | config _ _ => "config_error"
  | network _ => "network_error"
  | httpStatus _ _ => "upstream_status"
  | decode _ => "decode_error"
  | io _ => "io_error"
  | emptyJob => "empty_job"
  | taskFailed _ => "task_failed"
  | noContent => "no_content"
  | noContentBecause _ => "no_content"
  | partialContent _ => "partial_content"

/-- The HTTP status of an answer that reports the fault. -/
def status : Fault → Nat
  | config _ _ => 400
  | network _ | httpStatus _ _ | decode _ => 502
  | noContent | noContentBecause _ => 503
  | partialContent _ => 200
  | io _ | emptyJob | taskFailed _ => 500

/-- The soft fault: some sources failed, and the content that comes with it is to be used. -/
def isPartial : Fault → Bool
  | partialContent _ => true
  | _ => false

/-- Another fault lies behind this one. -/
def hasCause : Fault → Bool
  | network _ | io _ | noContentBecause _ => true
  | _ => false

end Fault

end ChannelWatch
