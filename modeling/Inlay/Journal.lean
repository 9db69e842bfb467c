import Inlay.File

set_option autoImplicit false

namespace Inlay

open Text

inductive Level
  | debug
  | info
  | warning
  | error
  | critical
  deriving Repr, DecidableEq

namespace Level

def rank : Level → Nat
  | debug => 10
  | info => 20
  | warning => 30
  | error => 40
  | critical => 50

def name : Level → Text
  | debug => "DEBUG"
  | info => "INFO"
  | warning => "WARNING"
  | error => "ERROR"
  | critical => "CRITICAL"

def all : List Level :=
  [debug, info, warning, error, critical]

def ofName? (name : Text) : Option Level :=
  all.find? (·.name == name)

end Level

inductive Event
  | claimed (path document name : Text)
  | stored (path : Text)
  | requested (path : Text)
  | unreadable (path : Text) (cause : FileFault)
  | merged (blockPath document name : Text)
  | untouched (document : Text)
  | transformed (document : Text)
  | failed (document message : Text)
  | malformedKey (key : Text)
  | configLoaded (path : Text)
  deriving Repr, DecidableEq

namespace Event

def level : Event → Level
  | claimed .. => .debug
  | stored .. => .debug
  | requested .. => .debug
  | unreadable .. => .error
  | merged .. => .debug
  | untouched .. => .debug
  | transformed .. => .info
  | failed .. => .error
  | malformedKey .. => .warning
  | configLoaded .. => .debug

def origin : Event → Text
  | claimed .. => "xblock.core.compose.usage"
  | stored .. => "xblock.core.compose.cache"
  | requested .. => "xblock.core.compose.cache"
  | unreadable .. => "xblock.core.compose.cache"
  | merged .. => "xblock.core.compose.transformer"
  | untouched .. => "xblock.core.compose.session"
  | transformed .. => "xblock.core.build"
  | failed .. => "xblock.core.build"
  | malformedKey .. => "xblock.core.config"
  | configLoaded .. => "xblock.core.config"

def message : Event → Text
  | claimed path document name =>
    "Recorded usage of ".toList ++ path ++ " by ".toList ++ document ++ " as ".toList ++ quoted name
  | stored path => "Block cache hit: ".toList ++ path
  | requested path => "Block cache miss: ".toList ++ path
  | unreadable path cause =>
    "Error reading XBlock file: ".toList ++ path ++ [' ', '('] ++ cause.message ++ [')']
  | merged blockPath document name =>
    "Merged ".toList ++ blockPath ++ " into ".toList ++ document ++ " as ".toList ++ name
  | untouched document => "No block imports in ".toList ++ document
  | transformed document => "Transformed ".toList ++ document
  | failed document message => "Failed to transform ".toList ++ document ++ [':', ' '] ++ message
  | malformedKey key => "Ignoring malformed XBLOCK_* key: ".toList ++ key
  | configLoaded path => "Loaded project config from ".toList ++ path

def line (event : Event) : Text :=
  event.level.name ++ ' ' :: event.origin ++ [':', ' '] ++ event.message

def requestedPath? : Event → Option Text
  | requested path => some path
  | _ => none

end Event

abbrev Journal := List Event

def Journal.lines (threshold : Level) (journal : Journal) : List Text :=
  (journal.filter fun event => decide (threshold.rank <= event.level.rank)).map Event.line

def Journal.reads (journal : Journal) : List Text :=
  journal.filterMap Event.requestedPath?

end Inlay
