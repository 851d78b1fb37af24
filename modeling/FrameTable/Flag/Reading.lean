import FrameTable.Flag.Thing
import FrameTable.Text.Case

namespace FrameTable.Flag

def isSeparator (c : Char) : Bool :=
  c = ',' || c = '+' || c = '|' || c = ' ' || c = '\t' || c = '\x0c' || c = '\r'

def mnemonics (text : String) : List String :=
  ((text.toList.splitOnP isSeparator).filter (!·.isEmpty)).map String.ofList

def lookup? (table : List Definition) (name : String) : Option Definition :=
  table.find? fun d => Text.same d.name name

def lookupIn? (word : Word) (table : List Definition) (name : String) : Option Definition :=
  table.find? fun d => Text.same d.name name && d.word == word

def union (definitions : List Definition) : UInt32 :=
  definitions.foldl (fun bits d => bits ||| d.bits) 0

def readWord (word : Word) (text : String) : UInt32 :=
  union ((mnemonics text).filterMap (lookupIn? word thingFlags))

def readSet (text : String) : FlagSet :=
  ((mnemonics text).filterMap (lookup? thingFlags)).foldl FlagSet.insert {}

def readTable (table : List Definition) (text : String) : UInt32 :=
  union ((mnemonics text).filterMap (lookup? table))

end FrameTable.Flag
