import ScriptFrontend.Screen.Style

/-!
The colours of the explorer.
-/
namespace ScriptFrontend.Theme

def text : Color := .rgb 205 214 244
def blue : Color := .rgb 137 180 250
def grey : Color := .rgb 108 112 134
def green : Color := .rgb 166 227 161
def red : Color := .rgb 243 139 168
def orange : Color := .rgb 250 179 135
def yellow : Color := .rgb 249 226 175
def teal : Color := .rgb 148 226 213
def barBackground : Color := .rgb 50 50 70
def faultBackground : Color := .rgb 80 40 55

def code : Style := .color text
def bracket : Style := .color blue
def keyword : Style := (Style.color blue).strong
def number : Style := .color orange
def quoted : Style := .color orange
def callee : Style := .color yellow
def comment : Style := .color grey
def alarm : Style := (Style.color red).strong
def caret : Style := .color red
def nodeKind : Style := .color teal
def success : Style := .color green
def dimmed : Style := .color grey

def border (focused : Bool) : Style := if focused then (Style.color yellow).strong else .color grey

end ScriptFrontend.Theme
