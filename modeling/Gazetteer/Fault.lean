import Gazetteer.Limits
import Gazetteer.Number.Positional
import Gazetteer.Text.Quoted

/-! What can go wrong, by cause, and the one wording of each cause. A full page and a missing key
are no faults; the operations that meet them answer with an empty option. -/
namespace Gazetteer

inductive IoFault where
  | noSuchPath
  | isFolder
  | badRead (page : Nat)
  | badWrite (page : Nat)
  | badClose
  | other (text : String)
  deriving DecidableEq, Repr

inductive SettingsFault where
  | precisionOutOfRange (precision : Nat)
  | noPages
  | tooManyPages (maxPages : Nat)
  | cellSizeNotPositive
  | orderOutOfRange (order : Nat)
  | curveTooShort (maxPages values : Nat)
  | emptyRegion
  | gridUnitNotPositive
  | other (text : String)
  deriving DecidableEq, Repr

inductive DecodeFault where
  | unexpectedEnd
  | unknownOptionTag (tag : Nat)
  | unknownVariant (index : Nat)
  | other (text : String)
  deriving DecidableEq, Repr

/-- Every fault of the store. `cyclicChain` names the page at which a chain of full pages comes
back to itself, so that no record can ever be appended to it. -/
inductive Fault where
  | io (cause : IoFault)
  | pageSpaceExhausted (maxPages : Nat)
  | invalidGeohash (c : Char)
  | recordTooLarge (size limit : Nat)
  | invalidSettings (cause : SettingsFault)
  | invalidRadius (radiusKm : Binary64)
  | unlinkablePage (page : Nat)
  | unreadable (cause : DecodeFault)
  | closed
  | cyclicChain (page : Nat)
  deriving DecidableEq, Repr

def IoFault.message : IoFault → String
  | .noSuchPath => "No such file or directory (os error 2)"
  | .isFolder => "Is a directory (os error 21)"
  | .badRead page => s!"bad read {page}"
  | .badWrite page => s!"bad write {page}"
  | .badClose => "bad close"
  | .other text => text

def SettingsFault.message : SettingsFault → String
  | .precisionOutOfRange p => s!"geohash precision must be within 1..={maxPrecision}, got {p}"
  | .noPages => "max_pages must be positive"
  | .tooManyPages n => s!"max_pages must be at most {linkLimit - 1}, got {n}"
  | .cellSizeNotPositive => "cell_size_km must be positive"
  | .orderOutOfRange k => s!"hilbert order must be within 1..={maxOrder}, got {k}"
  | .curveTooShort n values => s!"{n} pages cannot be spread over {values} curve values"
  | .emptyRegion => "bounding box is empty"
  | .gridUnitNotPositive => "km per grid unit must be positive"
  | .other text => text

def DecodeFault.message : DecodeFault → String
  | .unexpectedEnd => "io error: unexpected end of file"
  | .unknownOptionTag tag => s!"tag for enum is not valid, found {tag}"
  | .unknownVariant i =>
    "invalid value: integer `" ++ toString i ++ "`, expected variant index 0 <= i < 2"
  | .other text => text

def Fault.message : Fault → String
  | .io cause => "IO error: " ++ cause.message
  | .pageSpaceExhausted n => s!"No free page left within {n} pages."
  | .invalidGeohash c => "Invalid geohash character: " ++ Text.quoted c
  | .recordTooLarge size limit => s!"Record of {size} bytes exceeds page capacity of {limit} bytes."
  | .invalidSettings cause => "Invalid configuration: " ++ cause.message
  | .invalidRadius r =>
    "Search radius must be a finite number of kilometres, got " ++ r.toText ++ "."
  | .unlinkablePage page => s!"Page id {page} does not fit an overflow link."
  | .unreadable cause => "Serialization error: " ++ cause.message
  | .closed => "Disk manager is closed."
  | .cyclicChain page => s!"Page {page} is linked from its own chain."

end Gazetteer
