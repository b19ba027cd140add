import Splice.FileTree
import Splice.Schema

namespace Splice.Bundle

def lines (ls : List String) : String := "".intercalate (ls.map (· ++ "\n"))

def includesText : String := lines
  ["# Include directive resolution.",
   "includes:",
   "  fetch:",
   "    # Seconds to wait for an https:// include. null blocks until the",
   "    # server answers or the connection fails.",
   "    timeoutSeconds: null",
   "    # User-Agent header sent with remote fetches. null uses archdsl/<version>.",
   "    userAgent: null"]

def loggingText : String := lines
  ["logging:",
   "  level: WARNING",
   "  # Optional log file; null logs to stderr.",
   "  file: null"]

def schemaText : String := lines
  ["$schema: \"https://json-schema.org/draft/2020-12/schema\"",
   "title: archdsl configuration",
   "type: object",
   "properties:",
   "  includes:",
   "    type: object",
   "    properties:",
   "      fetch:",
   "        type: object",
   "        properties:",
   "          timeoutSeconds:",
   "            type: [\"number\", \"null\"]",
   "            exclusiveMinimum: 0",
   "          userAgent:",
   "            type: [\"string\", \"null\"]",
   "        additionalProperties: false",
   "    additionalProperties: false",
   "  logging:",
   "    type: object",
   "    properties:",
   "      level:",
   "        type: string",
   "      file:",
   "        type: [\"string\", \"null\"]",
   "    additionalProperties: false",
   "additionalProperties: true"]

def node : Node :=
  .directory
    [("config", .directory
      [("includes.yaml", .file (Text.Utf8.encode includesText)),
       ("logging.yaml", .file (Text.Utf8.encode loggingText))]),
     ("schemas", .directory [("config", .directory
      [("config.schema.yaml", .file (Text.Utf8.encode schemaText))])])]

def entries (es : List (String × Value)) : Mapping := es.map fun e => (.text e.1, e.2)

def mapping (es : List (String × Value)) : Value := .map (entries es)

def layers : List (String × Mapping) :=
  [("includes.yaml", entries [("includes", mapping [("fetch",
      mapping [("timeoutSeconds", .null), ("userAgent", .null)])])]),
   ("logging.yaml", entries [("logging", mapping [("level", .text "WARNING"), ("file", .null)])])]

def schema : Schema :=
  .mk ["object"]
    [("includes", .mk ["object"]
      [("fetch", .mk ["object"]
        [("timeoutSeconds", .mk ["number", "null"] [] true (some (.int 0))),
         ("userAgent", .mk ["string", "null"] [] true none)] false none)] false none),
     ("logging", .mk ["object"]
      [("level", .mk ["string"] [] true none),
       ("file", .mk ["string", "null"] [] true none)] false none)] true none

def version : String := "1.0.0"

end Splice.Bundle
