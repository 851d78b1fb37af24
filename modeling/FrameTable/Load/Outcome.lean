import FrameTable.Catalog.Basic

namespace FrameTable

inductive LoadError where
  | catalog (error : CatalogError)
  | numbering (error : NumberingError)
  | noFrames
  | missingNullFrame
  | badSpriteFrame (frame value : String)
  | badAction (frame value : String)
  | badNextFrame (frame value : String)
  | badParticleEvent (frame value : String)
  | deltaWithoutName (position : Nat)
  | unknownDeltaTarget (name : String)
deriving DecidableEq, Repr

def LoadError.message : LoadError → String
  | .catalog error => error.message
  | .numbering error => "legacy id allocation failed: " ++ error.message
  | .noFrames => "no frames defined"
  | .missingNullFrame => "'S_NULL' frame must be defined"
  | .badSpriteFrame frame value => s!"frame '{frame}': bad spriteframe '{value}'"
  | .badAction frame value => s!"frame '{frame}': bad action '{value}'"
  | .badNextFrame frame value => s!"frame '{frame}': bad nextframe '{value}'"
  | .badParticleEvent frame value => s!"frame '{frame}': bad particle event '{value}'"
  | .deltaWithoutName position => s!"framedelta section #{position} has no 'name' field"
  | .unknownDeltaTarget name => s!"framedelta: frame '{name}' does not exist"

inductive Kind where
  | frame
  | thing
  | sound
  | string
  | codePointer
deriving DecidableEq, Repr

def Kind.word : Kind → String
  | .frame => "frame"
  | .thing => "thing"
  | .sound => "sound"
  | .string => "string"
  | .codePointer => "bexptr"

inductive Warning where
  | unresolvedReference (kind : Kind) (name : String)
  | poolExhausted (kind : Kind) (name : String)
  | unknownMiscLabel (label : String)
  | emptyMiscValue (token : String)
  | unresolvedMisc (token : String)
  | undefinableSprite (frame sprite : String)
  | invalidSpriteName (sprite : String)
  | implicitFrame (frame target : String)
  | droppedArguments (frame : String) (count : Nat)
  | extraFields (frame : String) (count : Nat)
deriving DecidableEq, Repr

def Warning.message : Warning → String
  | .unresolvedReference kind name => "invalid " ++ kind.word ++ s!" '{name}'"
  | .poolExhausted kind name => "failed to auto-allocate legacy id for " ++ kind.word ++ s!" '{name}'"
  | .unknownMiscLabel label => s!"unknown value prefix '{label}'"
  | .emptyMiscValue token => s!"invalid prefix:value '{token}'"
  | .unresolvedMisc token => s!"misc value '{token}' matches no thing, frame, sound, string or bexptr"
  | .undefinableSprite frame sprite => s!"frame '{frame}': couldn't implicitly define sprite '{sprite}'"
  | .invalidSpriteName sprite => s!"invalid sprite name '{sprite}'"
  | .implicitFrame frame target => s!"frame '{frame}': nextframe '{target}' implicitly defined"
  | .droppedArguments frame count => s!"frame '{frame}': {count} argument(s) beyond capacity dropped"
  | .extraFields frame count => s!"frame '{frame}': {count} trailing cmp field(s) ignored"

end FrameTable
