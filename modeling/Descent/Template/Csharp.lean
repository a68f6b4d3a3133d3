/-!
# C# templates

The templates that come with the program for parsers in C#, line by line.
-/

namespace Descent.Template.Csharp

/-- The template of the scanner. -/
def scanner : String := String.join [
  "// Generated by TinyPG. Changes to this file are lost on regeneration.\n",
  "using System;\n",
  "using System.Collections.Generic;\n",
  "using System.Text.RegularExpressions;\n",
  "\n",
  "namespace <%Namespace%>\n",
  "\x7b\n",
  "    public partial class Scanner\n",
  "    \x7b\n",
  "        public string Input;\n",
  "        public int StartPos = 0;\n",
  "        public int EndPos = 0;\n",
  "        public string CurrentFile;\n",
  "        public int CurrentLine;\n",
  "        public int CurrentColumn;\n",
  "        public int CurrentPosition;\n",
  "        public List<Token> Skipped;\n",
  "        public Dictionary<TokenType, Regex> Patterns;\n",
  "\n",
  "        private Token LookAheadToken;\n",
  "        private List<TokenType> Tokens;\n",
  "        private List<TokenType> SkipList;\n",
  "        private readonly TokenType FileAndLine;\n",
  "\n",
  "        public Scanner()\n",
  "        \x7b\n",
  "            Regex regex;\n",
  "            Patterns = new Dictionary<TokenType, Regex>();\n",
  "            Tokens = new List<TokenType>();\n",
  "            LookAheadToken = null;\n",
  "            Skipped = new List<Token>();\n",
  "\n",
  "            SkipList = new List<TokenType>();\n",
  "<%SkipList%><%FileAndLine%>\n",
  "<%RegExps%>        \x7d\n",
  "\n",
  "        public void Init(string input)\n",
  "        \x7b\n",
  "            Init(input, \"\");\n",
  "        \x7d\n",
  "\n",
  "        public void Init(string input, string fileName)\n",
  "        \x7b\n",
  "            this.Input = input;\n",
  "            StartPos = 0;\n",
  "            EndPos = 0;\n",
  "            CurrentFile = fileName;\n",
  "            CurrentLine = 1;\n",
  "            CurrentColumn = 1;\n",
  "            CurrentPosition = 0;\n",
  "            LookAheadToken = null;\n",
  "        \x7d\n",
  "\n",
  "        public Token GetToken(TokenType type)\n",
  "        \x7b\n",
  "            Token t = new Token(this.StartPos, this.EndPos);\n",
  "            t.Type = type;\n",
  "            return t;\n",
  "        \x7d\n",
  "\n",
  "        public Token Scan(params TokenType[] expectedtokens)\n",
  "        \x7b\n",
  "            Token tok = LookAhead(expectedtokens);\n",
  "            LookAheadToken = null;\n",
  "            StartPos = tok.EndPos;\n",
  "            EndPos = tok.EndPos;\n",
  "            return tok;\n",
  "        \x7d\n",
  "\n",
  "        public Token LookAhead(params TokenType[] expectedtokens)\n",
  "        \x7b\n",
  "            int i;\n",
  "            int startpos = StartPos;\n",
  "            int endpos = EndPos;\n",
  "            int currentline = CurrentLine;\n",
  "            string currentFile = CurrentFile;\n",
  "            Token tok = null;\n",
  "            List<TokenType> scantokens;\n",
  "\n",
  "            if (LookAheadToken != null\n",
  "                && LookAheadToken.Type != TokenType._UNDETERMINED_\n",
  "                && LookAheadToken.Type != TokenType._NONE_) return LookAheadToken;\n",
  "\n",
  "            if (expectedtokens.Length == 0)\n",
  "                scantokens = Tokens;\n",
  "            else\n",
  "            \x7b\n",
  "                scantokens = new List<TokenType>(expectedtokens);\n",
  "                scantokens.AddRange(SkipList);\n",
  "            \x7d\n",
  "\n",
  "            do\n",
  "            \x7b\n",
  "                int len = -1;\n",
  "                TokenType index = (TokenType)int.MaxValue;\n",
  "                string input = Input.Substring(startpos);\n",
  "\n",
  "                tok = new Token(startpos, endpos);\n",
  "\n",
  "                for (i = 0; i < scantokens.Count; i++)\n",
  "                \x7b\n",
  "                    Regex r = Patterns[scantokens[i]];\n",
  "                    Match m = r.Match(input);\n",
  "                    if (m.Success && m.Index == 0 && ((m.Length > len) || (scantokens[i] < index && m.Length == len )))\n",
  "                    \x7b\n",
  "                        len = m.Length;\n",
  "                        index = scantokens[i];\n",
  "                    \x7d\n",
  "                \x7d\n",
  "\n",
  "                if (index >= 0 && len >= 0)\n",
  "                \x7b\n",
  "                    tok.EndPos = startpos + len;\n",
  "                    tok.Text = Input.Substring(tok.StartPos, len);\n",
  "                    tok.Type = index;\n",
  "                \x7d\n",
  "                else if (tok.StartPos == tok.EndPos)\n",
  "                \x7b\n",
  "                    if (tok.StartPos < Input.Length)\n",
  "                        tok.Text = Input.Substring(tok.StartPos, 1);\n",
  "                    else\n",
  "                        tok.Text = \"EOF\";\n",
  "                \x7d\n",
  "\n",
  "                tok.File = currentFile;\n",
  "                tok.Line = currentline;\n",
  "                if (tok.StartPos < Input.Length)\n",
  "                    tok.Column = tok.StartPos - Input.LastIndexOf('\\n', tok.StartPos);\n",
  "\n",
  "                if (SkipList.Contains(tok.Type))\n",
  "                \x7b\n",
  "                    startpos = tok.EndPos;\n",
  "                    endpos = tok.EndPos;\n",
  "                    currentline = tok.Line + (tok.Text.Length - tok.Text.Replace(\"\\n\", \"\").Length);\n",
  "                    currentFile = tok.File;\n",
  "                    Skipped.Add(tok);\n",
  "                \x7d\n",
  "                else\n",
  "                \x7b\n",
  "                    tok.Skipped = Skipped;\n",
  "                    Skipped = new List<Token>();\n",
  "\n",
  "                    if (tok.Type == FileAndLine)\n",
  "                    \x7b\n",
  "                        var match = Regex.Match(tok.Text, @\"line\\s+(?<Line>\\d+)\\s+\"\"(?<File>.*)\"\"\");\n",
  "                        if (match.Success)\n",
  "                        \x7b\n",
  "                            currentFile = match.Groups[\"File\"].Value;\n",
  "                            currentline = int.Parse(match.Groups[\"Line\"].Value);\n",
  "                        \x7d\n",
  "                    \x7d\n",
  "                \x7d\n",
  "            \x7d\n",
  "            while (SkipList.Contains(tok.Type));\n",
  "\n",
  "            LookAheadToken = tok;\n",
  "            return tok;\n",
  "        \x7d\n",
  "    \x7d\n",
  "\n",
  "    public enum TokenType\n",
  "    \x7b\n",
  "<%TokenType%>    \x7d\n",
  "\n",
  "    public class Token\n",
  "    \x7b\n",
  "        private string file;\n",
  "        private int line;\n",
  "        private int column;\n",
  "        private int startpos;\n",
  "        private int endpos;\n",
  "        private string text;\n",
  "\n",
  "        public string File \x7b get \x7b return file; \x7d set \x7b file = value; \x7d \x7d\n",
  "        public int Line \x7b get \x7b return line; \x7d set \x7b line = value; \x7d \x7d\n",
  "        public int Column \x7b get \x7b return column; \x7d set \x7b column = value; \x7d \x7d\n",
  "        public int StartPos \x7b get \x7b return startpos; \x7d set \x7b startpos = value; \x7d \x7d\n",
  "        public int Length \x7b get \x7b return endpos - startpos; \x7d \x7d\n",
  "        public int EndPos \x7b get \x7b return endpos; \x7d set \x7b endpos = value; \x7d \x7d\n",
  "        public string Text \x7b get \x7b return text; \x7d set \x7b text = value; \x7d \x7d\n",
  "\n",
  "        public List<Token> Skipped \x7b get; set; \x7d\n",
  "        public object Value \x7b get; set; \x7d\n",
  "\n",
  "        public TokenType Type;\n",
  "\n",
  "        public Token() : this(0, 0) \x7b \x7d\n",
  "\n",
  "        public Token(int start, int end)\n",
  "        \x7b\n",
  "            Type = TokenType._UNDETERMINED_;\n",
  "            startpos = start;\n",
  "            endpos = end;\n",
  "            Text = \"\";\n",
  "            Value = null;\n",
  "        \x7d\n",
  "\n",
  "        public void UpdateRange(Token token)\n",
  "        \x7b\n",
  "            if (token.StartPos < startpos) startpos = token.StartPos;\n",
  "            if (token.EndPos > endpos) endpos = token.EndPos;\n",
  "        \x7d\n",
  "\n",
  "        public override string ToString()\n",
  "        \x7b\n",
  "            if (Text != null)\n",
  "                return Type.ToString() + \" '\" + Text + \"'\";\n",
  "            else\n",
  "                return Type.ToString();\n",
  "        \x7d\n",
  "    \x7d\n",
  "\x7d\n"]

/-- The template of the parser. -/
def parser : String := String.join [
  "// Generated by TinyPG. Changes to this file are lost on regeneration.\n",
  "using System;\n",
  "using System.Collections.Generic;\n",
  "\n",
  "namespace <%Namespace%>\n",
  "\x7b\n",
  "    public partial class Parser<%IParser%>\n",
  "    \x7b\n",
  "        private Scanner scanner;\n",
  "        private ParseTree tree;\n",
  "\n",
  "        public Parser(Scanner scanner)\n",
  "        \x7b\n",
  "            this.scanner = scanner;\n",
  "        \x7d\n",
  "\n",
  "        public <%IParseTree%> Parse(string input)\n",
  "        \x7b\n",
  "            return Parse(input, \"\", new ParseTree());\n",
  "        \x7d\n",
  "\n",
  "        public <%IParseTree%> Parse(string input, string fileName)\n",
  "        \x7b\n",
  "            return Parse(input, fileName, new ParseTree());\n",
  "        \x7d\n",
  "\n",
  "        public <%IParseTree%> Parse(string input, string fileName, ParseTree tree)\n",
  "        \x7b\n",
  "            scanner.Init(input, fileName);\n",
  "\n",
  "            this.tree = tree;\n",
  "            ParseStart(tree);\n",
  "            tree.Skipped = scanner.Skipped;\n",
  "\n",
  "            return tree;\n",
  "        \x7d\n",
  "\n",
  "<%ParseNonTerminals%>\n",
  "    \x7d\n",
  "\x7d\n"]

/-- The template of the parse tree and its evaluation. -/
def parseTree : String := String.join [
  "// Generated by TinyPG. Changes to this file are lost on regeneration.\n",
  "using System;\n",
  "using System.Collections.Generic;\n",
  "using System.Text;\n",
  "\n",
  "namespace <%Namespace%>\n",
  "\x7b\n",
  "    [Serializable]\n",
  "    public class ParseError\n",
  "    \x7b\n",
  "        private string file;\n",
  "        private string message;\n",
  "        private int code;\n",
  "        private int line;\n",
  "        private int col;\n",
  "        private int pos;\n",
  "        private int length;\n",
  "\n",
  "        public string File \x7b get \x7b return file; \x7d \x7d\n",
  "        public int Code \x7b get \x7b return code; \x7d \x7d\n",
  "        public int Line \x7b get \x7b return line; \x7d \x7d\n",
  "        public int Column \x7b get \x7b return col; \x7d \x7d\n",
  "        public int Position \x7b get \x7b return pos; \x7d \x7d\n",
  "        public int Length \x7b get \x7b return length; \x7d \x7d\n",
  "        public string Message \x7b get \x7b return message; \x7d \x7d\n",
  "\n",
  "        public ParseError(string message, int code, Token token)\n",
  "            : this(message, code, token.File, token.Line, token.Column, token.StartPos, token.Length)\n",
  "        \x7b\n",
  "        \x7d\n",
  "\n",
  "        public ParseError(string message, int code, string file, int line, int col, int pos, int length)\n",
  "        \x7b\n",
  "            this.file = file;\n",
  "            this.message = message;\n",
  "            this.code = code;\n",
  "            this.line = line;\n",
  "            this.col = col;\n",
  "            this.pos = pos;\n",
  "            this.length = length;\n",
  "        \x7d\n",
  "    \x7d\n",
  "\n",
  "    [Serializable]\n",
  "    public class ParseErrors : List<ParseError>\n",
  "    \x7b\n",
  "    \x7d\n",
  "\n",
  "    public partial class ParseTree : ParseNode\n",
  "    \x7b\n",
  "        public ParseErrors Errors;\n",
  "        public List<Token> Skipped;\n",
  "\n",
  "        public ParseTree() : base(new Token(), \"ParseTree\")\n",
  "        \x7b\n",
  "            Token.Type = TokenType.Start;\n",
  "            Token.Text = \"Root\";\n",
  "            Errors = new ParseErrors();\n",
  "        \x7d\n",
  "\n",
  "        public object Eval(params object[] paramlist)\n",
  "        \x7b\n",
  "            return Nodes[0].Eval(this, paramlist);\n",
  "        \x7d\n",
  "    \x7d\n",
  "\n",
  "    public partial class ParseNode\n",
  "    \x7b\n",
  "        protected string text;\n",
  "        protected List<ParseNode> nodes;\n",
  "\n",
  "        public List<ParseNode> Nodes \x7b get \x7b return nodes; \x7d \x7d\n",
  "\n",
  "        public ParseNode Parent;\n",
  "        public Token Token;\n",
  "\n",
  "        public string Text \x7b get \x7b return text; \x7d set \x7b text = value; \x7d \x7d\n",
  "\n",
  "        public virtual ParseNode CreateNode(Token token, string text)\n",
  "        \x7b\n",
  "            ParseNode node = new ParseNode(token, text);\n",
  "            node.Parent = this;\n",
  "            return node;\n",
  "        \x7d\n",
  "\n",
  "        protected ParseNode(Token token, string text)\n",
  "        \x7b\n",
  "            this.Token = token;\n",
  "            this.text = text;\n",
  "            this.nodes = new List<ParseNode>();\n",
  "        \x7d\n",
  "\n",
  "        protected object GetValue(<%IParseTree%> tree, TokenType type, int index)\n",
  "        \x7b\n",
  "            return GetValue(tree, type, ref index);\n",
  "        \x7d\n",
  "\n",
  "        protected object GetValue(<%IParseTree%> tree, TokenType type, ref int index)\n",
  "        \x7b\n",
  "            object o = null;\n",
  "            if (index < 0) return o;\n",
  "\n",
  "            foreach (ParseNode node in nodes)\n",
  "            \x7b\n",
  "                if (node.Token.Type == type)\n",
  "                \x7b\n",
  "                    index--;\n",
  "                    if (index < 0)\n",
  "                    \x7b\n",
  "                        o = node.Eval(tree);\n",
  "                        break;\n",
  "                    \x7d\n",
  "                \x7d\n",
  "            \x7d\n",
  "            return o;\n",
  "        \x7d\n",
  "\n",
  "        internal object Eval(<%IParseTree%> tree, params object[] paramlist)\n",
  "        \x7b\n",
  "            object Value = null;\n",
  "\n",
  "            switch (Token.Type)\n",
  "            \x7b\n",
  "<%EvalSymbols%>\n",
  "                default:\n",
  "                    Value = Token.Text;\n",
  "                    break;\n",
  "            \x7d\n",
  "            return Value;\n",
  "        \x7d\n",
  "\n",
  "<%VirtualEvalMethods%>\n",
  "    \x7d\n",
  "\x7d\n"]

end Descent.Template.Csharp
